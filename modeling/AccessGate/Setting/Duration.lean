import AccessGate.Text.Blank
import AccessGate.Text.Digit
import AccessGate.Text.LowerCase
import AccessGate.Value.Display

/-!
# Durations in configuration

A duration is a whole number of microseconds, of at most 999999999 days either way.

* `AccessGate.Duration` – a **duration**;
* `AccessGate.Duration.Written` – a duration **as it is written**: an amount with or without a
  fraction, and a unit, which is the second if none is written;
* `AccessGate.Duration.ofValue` – the duration **that a value gives**, a bare number being seconds;
* `AccessGate.Duration.seconds` – a duration **in seconds**, as a double.
-/

namespace AccessGate

/-- A duration in microseconds. -/
structure Duration where
  microseconds : Int
deriving DecidableEq, Repr

/-- Why a value gives no duration. -/
inductive DurationError where
  | truthValue (b : Bool)
  | notTextNorNumber
  | malformed (text : String)
  | notANumber
  | outOfRange
deriving DecidableEq, Repr

def DurationError.message : DurationError → String
  | truthValue b => "Invalid duration: " ++ if b then "True" else "False"
  | notTextNorNumber => "Duration must be a string or a number"
  | malformed text => "Invalid duration format: " ++ text
  | notANumber => "cannot convert float NaN to integer"
  | outOfRange => "days out of range"

namespace Duration

/-- Microseconds of a second. -/
def second : Nat := 1000000

/-- Microseconds of a day. -/
def day : Nat := 86400 * second

/-- The most days of a duration. -/
def mostDays : Int := 999999999

/-- The whole days of a duration; what is left over is not negative. -/
def days (d : Duration) : Int := d.microseconds / day

/-- The duration of so many microseconds, if there is one. -/
def ofMicroseconds (n : Int) : Except DurationError Duration :=
  let d : Duration := ⟨n⟩
  if -mostDays ≤ d.days ∧ d.days ≤ mostDays then .ok d else .error .outOfRange

/-- So many seconds. -/
def ofWhole (n : Int) : Except DurationError Duration := ofMicroseconds (n * second)

/-- A double number of units of `unit` microseconds each. The whole units are counted exactly. The
fraction is multiplied as a double, and the sum is rounded to a whole number, a half going to the
even neighbour. -/
def ofDouble (unit : Nat) (x : Double) : Except DurationError Duration :=
  match x.magnitude with
  | some q =>
      let whole := q / quantaPerUnit * unit
      let fraction := Double.ofRatio false (q % quantaPerUnit * unit) quantaPerUnit
      let n : Int :=
        nearest (whole * quantaPerUnit + fraction.magnitude.getD 0) quantaPerUnit
      ofMicroseconds (if x.isNegative then -n else n)
  | none => if x = .nan then .error .notANumber else .error .outOfRange

/-! ### Written durations -/

/-- The units. -/
inductive Unit where
  | second
  | minute
  | hour
  | day
deriving DecidableEq, Repr

/-- The seconds of a unit. -/
def Unit.seconds : Unit → Nat
  | second => 1
  | minute => 60
  | hour => 3600
  | day => 86400

/-- The unit of a letter. -/
def Unit.ofLetter? : Char → Option Unit
  | 's' => some .second
  | 'm' => some .minute
  | 'h' => some .hour
  | 'd' => some .day
  | _ => none

/-- An amount `digits / 10 ^ places` of a unit. -/
structure Written where
  digits : Nat
  places : Nat
  unit : Unit
deriving DecidableEq, Repr

/-- The digits at the front, as values, and what follows them. -/
def takeDigits : List Char → List Nat × List Char
  | [] => ([], [])
  | c :: rest =>
      match Text.digit? c with
      | some d => let (ds, after) := takeDigits rest; (d :: ds, after)
      | none => ([], c :: rest)

/-- The digits after a point, if a point with digits follows. -/
def takeFraction : List Char → List Nat × List Char
  | '.' :: rest =>
      match takeDigits rest with
      | ([], _) => ([], '.' :: rest)
      | found => found
  | cs => ([], cs)

/-- The unit that ends a written duration. -/
def readUnit : List Char → Option Unit
  | [] => some .second
  | [c] => Unit.ofLetter? c
  | _ => none

/-- A written duration: digits, maybe a point and more digits, maybe blanks, maybe a unit. -/
def read (cs : List Char) : Option Written :=
  match takeDigits cs with
  | ([], _) => none
  | (ds, afterWhole) =>
      let (fs, afterAmount) := takeFraction afterWhole
      (readUnit (Text.dropBlanks afterAmount)).map fun unit =>
        { digits := Text.ofDigits (ds ++ fs), places := fs.length, unit := unit }

/-- The duration of a text, the amount being read as a double. -/
def ofText (s : String) : Except DurationError Duration :=
  match read (Text.lower (Text.strip s)).toList with
  | some w => ofDouble (w.unit.seconds * second) (Double.ofDecimal false w.digits (-w.places))
  | none => .error (.malformed s)

/-- The duration that a value gives. -/
def ofValue : Value → Except DurationError Duration
  | .bool b => .error (.truthValue b)
  | .int n => ofWhole n
  | .float x => ofDouble second x
  | .text s => ofText s
  | _ => .error .notTextNorNumber

/-! ### Reading a duration off -/

/-- The whole seconds beyond the whole days. -/
def secondsOfDay (d : Duration) : Int := d.microseconds % day / second

/-- The microseconds beyond the whole seconds. -/
def microsecondsOfSecond (d : Duration) : Int := d.microseconds % second

/-- The duration in seconds, rounded to a double. -/
def seconds (d : Duration) : Double :=
  Double.ofRatio (decide (d.microseconds < 0)) d.microseconds.natAbs second

end Duration

end AccessGate
