import AccessGate.Error.Setup
import AccessGate.Error.Signing
import AccessGate.Error.Token
import AccessGate.Json.Reader
import AccessGate.Value.Pairs

/-!
# Faults

Everything that can end an operation without a result.

* `AccessGate.Fault` – the errors with a report of their own, and the accidents of loosely typed
  data, which have none: a value of a kind the operation is not defined on, a number out of range, a
  file that is not what its name says;
* `AccessGate.Value.missing` – the fault of **using an attribute** of a value as a function;
* `AccessGate.SetupError.fault` – the fault of **what is wrong with a setup**, which needs a report;
* `AccessGate.Value.toText` – the **text of a value**, which not every value has;
* `AccessGate.Value.toDouble` – the **double that a number counts as**; other values are of the
  wrong kind;
* `AccessGate.Members.read` – the **members that a value gives**; one that is no row of pairs has
  the fault `AccessGate.PairsError.fault`.
-/

namespace AccessGate

/-- Why an operation has no result. -/
inductive Fault where
  | setup (e : SetupError)
  | authentication (e : AuthenticationError)
  | signing (e : SigningError)
  | wrongKind
  | noSuchAttribute
  | noSuchMember
  | noSuchItem
  | undefinedOperation
  | unsupportedKey
  | outOfRange
  | badValue
  | notJson
  | notUtf8
  | notYaml
  | notWebAddress
  | isDirectory
  | nameTooLong
deriving DecidableEq, Repr

namespace Fault

/-- The report of an error that has one. -/
def report? : Fault → Option Report
  | setup e => e.report?
  | authentication e => some e.report
  | signing e => some e.report
  | _ => none

/-- The fault of a text or of bytes that cannot be read as JSON. -/
def ofUnreadable : Json.Unreadable → Fault
  | .notText => notUtf8
  | .malformed => notJson
  | .tooManyDigits => badValue

end Fault

/-- The fault of what is wrong with a setup. If the value that the report is to show has no text, it
ends with that instead. -/
def SetupError.fault (e : SetupError) : Fault :=
  if e.shown.display?.isSome then .setup e else .badValue

/-- The fault of using what a value has under a name as a function. An object may have something
there, but that is data. -/
def Value.missing (v : Value) (name : String) : Fault :=
  match v with
  | .object attributes => if (attributes.lookup name).isSome then .wrongKind else .noSuchAttribute
  | _ => .noSuchAttribute

/-- The text of a value, or the fault of one that holds a number of too many digits. -/
def Value.toText (v : Value) : Except Fault String :=
  match v.display? with
  | some s => .ok s
  | none => .error .badValue

/-- The double that a number counts as. A whole number has to be within the range of doubles; truth
values count as one and zero. -/
def Value.toDouble : Value → Except Fault Double
  | .bool b => .ok (Double.ofInt (if b then 1 else 0))
  | .int n =>
      match Double.ofInt? n with
      | some x => .ok x
      | none => .error .outOfRange
  | .float x => .ok x
  | _ => .error .wrongKind

/-- The fault of a value that is no row of pairs. -/
def PairsError.fault : PairsError → Fault
  | wrongLength _ _ => .badValue
  | _ => .wrongKind

/-- The members that a value gives, or the fault of giving none. -/
def Members.read (v : Value) : Except Fault Members := (Members.ofValue v).mapError PairsError.fault

end AccessGate
