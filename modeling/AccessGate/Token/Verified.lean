import AccessGate.Key.Set
import AccessGate.Token.Claims
import AccessGate.Token.Parts
import AccessGate.Token.Secret

/-!
# Verified claims

* `AccessGate.Token.verify` – the **claims of a token** that was signed with the right algorithm and
  the right key, and whose claims are as expected.

The algorithm is not the token's to choose: the header has to name the one that is configured.
-/

namespace AccessGate.Token

open Expectation (refused)

/-- The header has to name the algorithm. -/
def checkAlgorithm (a : Algorithm) (header : Members) : Except TokenError Unit :=
  match header.find? (.text "alg") with
  | none => .error .algorithmMissing
  | some v => if v.equals (.text a.name) then .ok () else .error .algorithmRefused

/-! ### Keys -/

/-- The bytes of a shared secret. A key that is no text is a fault of the configuration. -/
def secretOf : Key → Except Fault (List UInt8)
  | .given v =>
      (Secret.ofKey v).mapError fun
        | .notSecret => .wrongKind
        | e => refused (.key e)
  | .half _ => .error .wrongKind

/-- The fault of a text that no key can be read from. Each family has its own way to say so. -/
def unreadable (family : KeyFamily) (bs : List UInt8) : Fault :=
  match family with
  | .rsa => refused .uselessKey
  | .curve => .badValue
  | .edwards =>
      if KeyLine.isMarked bs || KeyLine.isReadFor family bs then .badValue
      else refused .uselessKey

/-- The fault of what was given as the public half of a pair. No such key can be read here. -/
def pairFault (family : KeyFamily) (v : Value) : Fault :=
  match Secret.bytes? v with
  | some bs =>
      if family = .edwards ∧ (Text.ofUtf8? bs).isNone then .notUtf8
      else if KeyLine.isReadFor family bs && (KeyLine.unknownType? bs).isSome then .unsupportedKey
      else unreadable family bs
  | none => if family = .edwards then refused .uselessKey else .wrongKind

/-- The fault of the half of a pair for an algorithm. A point has to be on the algorithm's curve,
and a private half with a modulus cannot check anything. What is left says that the signature is
wrong. -/
def halfFault (a : Algorithm) (h : KeyHalf) : Fault :=
  if a.keyKind = .pair h.family then
    match a, h with
    | .curve size, .point c =>
        if c = size.curve then refused .wrongSignature
        else refused (.wrongCurve c.standardName size.curve.standardName)
    | _, .modulus true => .noSuchAttribute
    | _, _ => refused .wrongSignature
  else if a = .edwards then refused .uselessKey
  else .wrongKind

/-- The fault of a key of an algorithm whose keys are pairs of a family. -/
def keyFault (a : Algorithm) (family : KeyFamily) : Key → Fault
  | .given v => pairFault family v
  | .half h => halfFault a h

/-- The signature has to be the one that the algorithm makes. Those of algorithms with a key pair
cannot be checked here, and none is right. -/
def checkSignature (a : Algorithm) (key : Key) (p : Parts) : Except Fault Unit :=
  match a, a.keyKind with
  | .secret size, _ => do
      let secret ← secretOf key
      if size.function.keyed secret p.signed ≠ p.signature then throw (refused .wrongSignature)
  | _, .pair family => .error (keyFault a family key)
  | _, .secret => .error .wrongKind

/-- The claims of a token. -/
def verify (a : Algorithm) (key : Key) (e : Expectation) (token : Value) :
    Except Fault Members := do
  let p ← (Parts.ofToken token).mapError refused
  p.check.mapError refused
  p.checkAttached.mapError refused
  (checkAlgorithm a p.header).mapError refused
  checkSignature a key p
  let claims ← p.claims.mapError refused
  e.check claims
  return claims

end AccessGate.Token
