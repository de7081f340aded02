import AccessGate.Key.Curve
import AccessGate.Token.Algorithm

/-!
# Kinds of keys

A key is a secret that both sides share, or one half of a pair. Pairs come in three families, and an
algorithm takes keys of one kind only.

* `AccessGate.KeyFamily` and `AccessGate.KeyKind` – the **families** of pairs and the **kinds** of
  keys;
* `AccessGate.KeyHalf` – the **half of a pair**, as far as it matters which one it is;
* `AccessGate.Algorithm.keyKind` – the kind of the keys **of an algorithm**, and
  `AccessGate.DigestSize.curve` the curve, where a digest goes with one.
-/

namespace AccessGate

/-- The families of key pairs. -/
inductive KeyFamily where
  | rsa
  | curve
  | edwards
deriving DecidableEq, Repr

/-- What keys are: a secret that both sides share, or a pair. -/
inductive KeyKind where
  | secret
  | pair (family : KeyFamily)
deriving DecidableEq, Repr

/-- Half of a pair. Which key it is does not matter here, for no signature by the other half can be
checked. -/
inductive KeyHalf where
  | modulus (isPrivate : Bool)
  | point (curve : Curve)
  | plain
deriving DecidableEq, Repr

def KeyHalf.family : KeyHalf → KeyFamily
  | modulus _ => .rsa
  | point _ => .curve
  | plain => .edwards

/-- The name of a kind in a document of keys. -/
def KeyKind.name : KeyKind → String
  | secret => "oct"
  | pair .rsa => "RSA"
  | pair .curve => "EC"
  | pair .edwards => "OKP"

/-- The kind of the keys of an algorithm. -/
def Algorithm.keyKind : Algorithm → KeyKind
  | secret _ => .secret
  | rsa _ => .pair .rsa
  | rsaPadded _ => .pair .rsa
  | curve _ => .pair .curve
  | edwards => .pair .edwards

/-- The curve that a digest is used with. -/
def DigestSize.curve : DigestSize → Curve
  | bits256 => .p256
  | bits384 => .p384
  | bits512 => .p521

end AccessGate
