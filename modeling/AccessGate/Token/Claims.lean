import AccessGate.Error.Fault
import AccessGate.Number.Whole
import AccessGate.Text.Blank

/-!
# What is expected of claims

* `AccessGate.Expectation` – what the claims of a token are **held against**: an audience, an
  issuer, the time, and how far clocks may differ;
* `AccessGate.Expectation.check` – the **checks**, in their order: the three times, the issuer, the
  audience, and the kinds of the subject and of the token's own id.

A time is anything that can be read as a whole number: doubles lose their fractions, and numerals of
every script are read. Now is a double, as the clock gives it, and the leeway is added as another
one, so next to a leeway that is large enough now is lost in rounding. A leeway that is not a number
compares to nothing, so it forgives all.
-/

namespace AccessGate

/-- What claims are held against. The time is in seconds. -/
structure Expectation where
  audience : Value
  issuer : Value
  leeway : Value
  now : Double
deriving DecidableEq, Repr

namespace Expectation

/-! ### Times -/

/-- The digits of a numeral after its first one. Single underscores may stand between digits. -/
def moreDigits : List Char → Option (List Nat)
  | [] => some []
  | [c] => (Text.digit? c).map fun d => [d]
  | '_' :: c :: rest => do
      let d ← Text.digit? c
      let ds ← moreDigits rest
      return d :: ds
  | c :: rest => do
      let d ← Text.digit? c
      let ds ← moreDigits rest
      return d :: ds

/-- The number of a numeral without a sign. -/
def natural? : List Char → Option Nat
  | [] => none
  | c :: rest => do
      let d ← Text.digit? c
      let ds ← moreDigits rest
      Whole.ofDigits? (d :: ds)

/-- The whole number that a numeral stands for. White space may stand around it, but no information
separators. -/
def numeral? (s : String) : Option Int :=
  match Text.trimmed Text.isSpace s.toList with
  | '-' :: cs => (natural? cs).map fun n => -(n : Int)
  | '+' :: cs => (natural? cs).map Int.ofNat
  | cs => (natural? cs).map Int.ofNat

/-- The whole number that a value is read as. -/
def whole? : Value → Option Int
  | .bool b => some (if b then 1 else 0)
  | .int n => some n
  | .float x => x.truncate?
  | .text s => numeral? s
  | _ => none

/-- Is a time later than now and the leeway? Their sum is a double, and the time is compared with
exactly that. -/
def isFuture (e : Expectation) (time : Int) : Except Fault Bool := do
  let leeway ← e.leeway.toDouble
  let latest := Point.ofDouble? (e.now.add leeway)
  return latest.any (·.lt (.ofInt time))

/-- Is a time not later than now less the leeway? The difference is a double as well. -/
def isPast (e : Expectation) (time : Int) : Except Fault Bool := do
  let leeway ← e.leeway.toDouble
  let earliest := Point.ofDouble? (e.now.add leeway.neg)
  return earliest.any fun p => !p.lt (.ofInt time)

/-- The fault of a token that fails a check. -/
def refused (e : TokenError) : Fault := .authentication (.tokenInvalid e)

/-- The name of a claim in a value. -/
def under (claims : Members) (name : String) : Option Value := claims.find? (.text name)

/-- A time that is given has to be a whole number, and is put to a test. -/
def checkTime (claims : Members) (claim : TimeClaim) (test : Int → Except Fault Bool)
    (otherwise : TokenError) : Except Fault Unit :=
  match under claims claim.name with
  | none => .ok ()
  | some v =>
      match whole? v with
      | none => .error (refused (.timeNotWhole claim))
      | some time => do if ← test time then throw (refused otherwise)

/-- The three times. -/
def checkTimes (e : Expectation) (claims : Members) : Except Fault Unit := do
  checkTime claims .issuedAt e.isFuture (.notYetValid .issuedAt)
  checkTime claims .notBefore e.isFuture (.notYetValid .notBefore)
  checkTime claims .expiry e.isPast .expired

/-! ### Issuer and audience -/

/-- Does the setting allow the issuer? It is a text or a collection of them. -/
def allowsIssuer (setting : Value) (issuer : String) : Except TokenError Bool :=
  match setting with
  | .text s => .ok (issuer == s)
  | .list xs => .ok (xs.any (·.equals (.text issuer)))
  | .tuple xs => .ok (xs.any (·.equals (.text issuer)))
  | .mapping ms => .ok (Members.find? ms (.text issuer)).isSome
  | _ => .error .issuerSettingShape

/-- The issuer, if one is expected. -/
def checkIssuer (e : Expectation) (claims : Members) : Except TokenError Unit :=
  match e.issuer with
  | .null => .ok ()
  | setting =>
      match under claims "iss" with
      | none => .error (.claimMissing "iss")
      | some (.text issuer) => do
          if !(← allowsIssuer setting issuer) then throw .wrongIssuer
      | some _ => .error .issuerNotText

/-- The audiences that are expected, one of which is enough. Without any, none is. -/
def audiences (e : Expectation) : Except Fault (Option (List Value)) :=
  if e.audience.isTruthy then
    match e.audience with
    | .text s => .ok (some [.text s])
    | v =>
        match v.elements? with
        | some xs => .ok (some xs)
        | none => .error .wrongKind
  else .ok none

/-- The audiences of a token: a text or a list of texts. -/
def tokenAudiences : Value → Except TokenError (List Value)
  | .text s => .ok [.text s]
  | .list xs => if xs.all Value.isText then .ok xs else .error .audienceShape
  | _ => .error .audienceShape

/-- The audience has to be one of the expected ones. -/
def checkAudience (expected : List Value) (claims : Members) : Except TokenError Unit := do
  let given := (under claims "aud").getD .null
  if !given.isTruthy then throw (.claimMissing "aud")
  let audiences ← tokenAudiences given
  if !expected.any fun a => audiences.any (·.equals a) then throw .wrongAudience

/-! ### All checks -/

/-- A claim that is given has to be a text. -/
def checkText (claims : Members) (name : String) (otherwise : TokenError) :
    Except TokenError Unit :=
  match under claims name with
  | none => .ok ()
  | some (.text _) => .ok ()
  | some _ => .error otherwise

/-- The claims of a token whose signature is right. -/
def check (e : Expectation) (claims : Members) : Except Fault Unit := do
  let audiences ← e.audiences
  e.checkTimes claims
  (e.checkIssuer claims).mapError refused
  match audiences with
  | some expected => (checkAudience expected claims).mapError refused
  | none => pure ()
  (checkText claims "sub" .subjectNotText).mapError refused
  (checkText claims "jti" .identifierNotText).mapError refused

end Expectation

end AccessGate
