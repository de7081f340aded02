import AccessGate.Key.Curve
import AccessGate.Key.Modulus

/-!
# Public keys in binary form

A binary structure is a row of parts. Each has a number that says what it is, the length of its
content, and the content, which may be a row of parts again.

* `AccessGate.Structure.parts?` – the **parts** that bytes are made of, nothing left over;
* `AccessGate.Structure.isPublicKey` – are bytes a **public key or a certificate**? A public key
  names its kind and is one of that kind.

Half of a pair that is kept secret is another structure, and is none of these.
-/

namespace AccessGate.Structure

/-- A part of a structure. -/
structure Part where
  tag : UInt8
  content : List UInt8
deriving DecidableEq, Repr

/-! ### Reading -/

/-- The length of a content, and what follows it. A length of 128 and more is written in bytes of
its own, no more of them than it needs, behind their count. -/
def sized? : List UInt8 → Option (Nat × List UInt8)
  | [] => none
  | b :: bs =>
      if b < 128 then some (b.toNat, bs)
      else
        let width := b.toNat - 128
        let length := BigEndian.value (bs.take width)
        if width = 0 ∨ 4 < width ∨ bs.length < width ∨ length < 128 ∨ bs.head? = some 0 then none
        else some (length, bs.drop width)

/-- At most `n` parts, up to the end of the bytes. -/
def partsUpTo : Nat → List UInt8 → Option (List Part)
  | _, [] => some []
  | 0, _ => none
  | n + 1, tag :: bs => do
      let (length, rest) ← sized? bs
      if rest.length < length then none
      else
        let more ← partsUpTo n (rest.drop length)
        return ⟨tag, rest.take length⟩ :: more

/-- The parts that bytes are made of. Each takes at least two bytes. -/
def parts? (bs : List UInt8) : Option (List Part) := partsUpTo bs.length bs

/-- The parts of a row of parts. -/
def row? (p : Part) : Option (List Part) := if p.tag = 0x30 then parts? p.content else none

/-- The parts of bytes that are one row of parts. -/
def wholeRow? (bs : List UInt8) : Option (List Part) :=
  match parts? bs with
  | some [p] => row? p
  | _ => none

/-- A whole number, which is not below zero and is written without needless bytes. -/
def number? (p : Part) : Option Nat :=
  match p.tag, p.content with
  | 0x02, [b] => if b < 128 then some b.toNat else none
  | 0x02, b :: c :: rest =>
      if b < 128 ∧ (b ≠ 0 ∨ 128 ≤ c) then some (BigEndian.value (b :: c :: rest)) else none
  | _, _ => none

/-- The bytes of a row of bits that fills them. -/
def bits? (p : Part) : Option (List UInt8) :=
  match p.tag, p.content with
  | 0x03, 0 :: bs => some bs
  | _, _ => none

/-! ### Kinds of keys -/

/-- Are bytes a modulus and an exponent? -/
def isModulusRow (bs : List UInt8) : Bool :=
  match wholeRow? bs with
  | some [n, e] =>
      match number? n, number? e with
      | some n, some e => Modulus.isSound ⟨n, e⟩
      | _, _ => false
  | _ => false

/-- Are bytes a point of a curve, both numbers written out? -/
def isPoint (c : Curve) : List UInt8 → Bool
  | 0x04 :: bs => c.holdsBytes (bs.take c.width) (bs.drop c.width)
  | _ => false

/-- The curves by the numbers that stand for their names. -/
def curveNames : List (List UInt8 × Curve) :=
  [([0x2a, 0x86, 0x48, 0xce, 0x3d, 0x03, 0x01, 0x07], .p256),
    ([0x2b, 0x81, 0x04, 0x00, 0x22], .p384), ([0x2b, 0x81, 0x04, 0x00, 0x23], .p521),
    ([0x2b, 0x81, 0x04, 0x00, 0x0a], .secp256k1)]

/-- The kinds whose keys are bytes of a fixed number. -/
def plainKinds : List (List UInt8 × Nat) :=
  [([0x2b, 0x65, 0x6e], 32), ([0x2b, 0x65, 0x6f], 56), ([0x2b, 0x65, 0x70], 32),
    ([0x2b, 0x65, 0x71], 57)]

/-- The kind whose keys are a modulus and an exponent. -/
def modulusKind : List UInt8 := [0x2a, 0x86, 0x48, 0x86, 0xf7, 0x0d, 0x01, 0x01, 0x01]

/-- The kind whose keys are points of a curve. -/
def pointKind : List UInt8 := [0x2a, 0x86, 0x48, 0xce, 0x3d, 0x02, 0x01]

/-- Are bytes a key of a kind, given by the number of its name and what follows it? -/
def isKeyOf (name : List UInt8) (more : List Part) (key : List UInt8) : Bool :=
  match plainKinds.lookup name, more with
  | some length, [] => key.length == length
  | some _, _ => false
  | none, _ =>
      if name = modulusKind then (more.all (· == ⟨0x05, []⟩)) && isModulusRow key
      else if name = pointKind then
        match more with
        | [⟨0x06, curve⟩] => (curveNames.lookup curve).any (isPoint · key)
        | _ => false
      else false

/-- Is a row of parts a key that names its kind? -/
def isNamedKey (kind key : Part) : Bool :=
  match row? kind, bits? key with
  | some (⟨0x06, name⟩ :: more), some bs => isKeyOf name more bs
  | _, _ => false

/-- Is a part what a certificate says? It may start with a version, and goes on with a number, the
way it was signed, the one who signed it, a span of time, the one it is about, and a key. -/
def isStatement (p : Part) : Bool :=
  match row? p with
  | some parts =>
      let tags := (parts.dropWhile (·.tag == 0xa0)).map Part.tag
      [0x02, 0x30, 0x30, 0x30, 0x30, 0x30].isPrefixOf tags
  | none => false

/-- Are bytes a public key or a certificate? -/
def isPublicKey (bs : List UInt8) : Bool :=
  match wholeRow? bs with
  | some [statement, way, signature] =>
      isStatement statement && (row? way).isSome && (bits? signature).isSome
  | some [kind, key] => isNamedKey kind key || isModulusRow bs
  | _ => false

end AccessGate.Structure
