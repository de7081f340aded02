import AccessGate.Number.BigEndian

/-!
# Curves

The points of a curve are the solutions of `y² = x³ + ax + b` modulo a prime. A public key is such a
point, and two numbers that are no solution are no key.

* `AccessGate.Curve` – a **curve**, and `AccessGate.Curve.all`, the four that keys are named after;
* `AccessGate.Curve.contains` – is a pair of numbers a **point of it**?
* `AccessGate.Curve.holdsBytes` – the same of numbers **written as bytes**, as many as the curve has
  for a number;
* `AccessGate.Curve.isMultiple` – is a point so many **times the first point** of the curve? The
  private half of a pair is that number.
-/

namespace AccessGate

/-- A curve, with its name in documents and its standard name, the point that keys are counted from,
and the number of bytes that its numbers take. -/
structure Curve where
  name : String
  standardName : String
  prime : Nat
  a : Nat
  b : Nat
  first : Nat × Nat
  width : Nat
deriving DecidableEq, Repr

namespace Curve

/-! ### The four curves -/

def p256 : Curve where
  name := "P-256"
  standardName := "secp256r1"
  prime := Nat.pow 2 256 - Nat.pow 2 224 + Nat.pow 2 192 + Nat.pow 2 96 - 1
  a := Nat.pow 2 256 - Nat.pow 2 224 + Nat.pow 2 192 + Nat.pow 2 96 - 4
  b := 0x5ac635d8aa3a93e7b3ebbd55769886bc651d06b0cc53b0f63bce3c3e27d2604b
  first := (0x6b17d1f2e12c4247f8bce6e563a440f277037d812deb33a0f4a13945d898c296,
    0x4fe342e2fe1a7f9b8ee7eb4a7c0f9e162bce33576b315ececbb6406837bf51f5)
  width := 32

def p384 : Curve where
  name := "P-384"
  standardName := "secp384r1"
  prime := Nat.pow 2 384 - Nat.pow 2 128 - Nat.pow 2 96 + Nat.pow 2 32 - 1
  a := Nat.pow 2 384 - Nat.pow 2 128 - Nat.pow 2 96 + Nat.pow 2 32 - 4
  b := 0xb3312fa7e23ee7e4988e056be3f82d19181d9c6efe814112 * Nat.pow 2 192 +
    0x0314088f5013875ac656398d8a2ed19d2a85c8edd3ec2aef
  first := (0xaa87ca22be8b05378eb1c71ef320ad746e1d3b628ba79b98 * Nat.pow 2 192 +
      0x59f741e082542a385502f25dbf55296c3a545e3872760ab7,
    0x3617de4a96262c6f5d9e98bf9292dc29f8f41dbd289a147c * Nat.pow 2 192 +
      0xe9da3113b5f0b8c00a60b1ce1d7e819d7a431d7c90ea0e5f)
  width := 48

def p521 : Curve where
  name := "P-521"
  standardName := "secp521r1"
  prime := Nat.pow 2 521 - 1
  a := Nat.pow 2 521 - 4
  b := 0x51953eb9618e1c9a1f929a21a0b68540eea2da725b99b315f3b8b489918ef109e1 * Nat.pow 2 256 +
    0x56193951ec7e937b1652c0bd3bb1bf073573df883d2c34f1ef451fd46b503f00
  first := (0xc6858e06b70404e9cd9e3ecb662395b4429c648139053fb521f828af606b4d3dba * Nat.pow 2 256 +
      0xa14b5e77efe75928fe1dc127a2ffa8de3348b3c1856a429bf97e7e31c2e5bd66,
    0x11839296a789a3bc0045c8a5fb42c7d1bd998f54449579b446817afbd17273e662c * Nat.pow 2 256 +
      0x97ee72995ef42640c550b9013fad0761353c7086a272c24088be94769fd16650)
  width := 66

def secp256k1 : Curve where
  name := "secp256k1"
  standardName := "secp256k1"
  prime := Nat.pow 2 256 - Nat.pow 2 32 - 977
  a := 0
  b := 7
  first := (0x79be667ef9dcbbac55a06295ce870b07029bfcdb2dce28d959f2815b16f81798,
    0x483ada7726a3c4655da4fbfc0e1108a8fd17b448a68554199c47d08ffb10d4b8)
  width := 32

def all : List Curve := [p256, p384, p521, secp256k1]

/-- The curve with the given name. -/
def ofName? (s : String) : Option Curve := all.find? (·.name == s)

/-! ### Points -/

/-- Is a pair of numbers a point of the curve? -/
def contains (c : Curve) (x y : Nat) : Bool :=
  decide (x < c.prime) && decide (y < c.prime) &&
    (y * y % c.prime == (x * x * x + c.a * x + c.b) % c.prime)

/-- Are two rows of bytes the coordinates of a point? -/
def holdsBytes (c : Curve) (xs ys : List UInt8) : Bool :=
  xs.length == c.width && ys.length == c.width &&
    c.contains (BigEndian.value xs) (BigEndian.value ys)

/-! ### Multiples -/

/-- A point as the quotients `x / z²` and `y / z³`. With `z = 0` it is the point at infinity, which
counts as nought. -/
structure Triple where
  x : Nat
  y : Nat
  z : Nat

namespace Triple

/-- The point at infinity. -/
def nought : Triple := ⟨1, 1, 0⟩

/-- A point of which both numbers are given. -/
def ofPair (p : Nat × Nat) : Triple := ⟨p.1, p.2, 1⟩

/-- A point added to itself. -/
def double (c : Curve) (t : Triple) : Triple :=
  let m := c.prime
  let square := t.y * t.y % m
  let s := 4 * t.x * square % m
  let z2 := t.z * t.z % m
  let slope := (3 * t.x * t.x + c.a * z2 * z2) % m
  let x := (slope * slope + 2 * (m - s)) % m
  ⟨x, (slope * (s + m - x) + 8 * (m - square * square % m)) % m, 2 * t.y * t.z % m⟩

/-- The sum of two points. -/
def add (c : Curve) (s t : Triple) : Triple :=
  if s.z = 0 then t
  else if t.z = 0 then s
  else
    let m := c.prime
    let sz2 := s.z * s.z % m
    let tz2 := t.z * t.z % m
    let sx := s.x * tz2 % m
    let tx := t.x * sz2 % m
    let sy := s.y * tz2 * t.z % m
    let ty := t.y * sz2 * s.z % m
    if sx = tx then if sy = ty then double c s else nought
    else
      let run := tx + m - sx
      let rise := ty + m - sy
      let run2 := run * run % m
      let run3 := run2 * run % m
      let base := sx * run2 % m
      let x := (rise * rise + (m - run3) + 2 * (m - base)) % m
      ⟨x, (rise * (base + m - x) + (m - sy) * run3) % m, s.z * t.z * run % m⟩

/-- A point taken so many times. -/
def times (c : Curve) (n : Nat) (t : Triple) : Triple :=
  if n = 0 then nought
  else
    let twice := double c (times c (n / 2) t)
    if n % 2 = 0 then twice else add c twice t
termination_by n

/-- Is a triple the point with the given numbers? -/
def isPair (c : Curve) (t : Triple) (p : Nat × Nat) : Bool :=
  let z2 := t.z * t.z % c.prime
  t.z != 0 && t.x == p.1 * z2 % c.prime && t.y == p.2 * z2 * t.z % c.prime

end Triple

/-- Is a point so many times the first point of the curve? -/
def isMultiple (c : Curve) (n : Nat) (p : Nat × Nat) : Bool :=
  (Triple.times c n (.ofPair c.first)).isPair c p

end Curve

end AccessGate
