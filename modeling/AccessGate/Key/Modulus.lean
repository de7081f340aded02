import AccessGate.Number.Modular

/-!
# Moduli

The keys of one family are numbers: the public half is a modulus and an exponent, and the private
half adds the exponent that undoes the other one. The modulus is the product of two primes, which
the private half may give as well, with numbers that save work.

* `AccessGate.Modulus` – the **public half**, and `AccessGate.Modulus.isSound`, whether it can be
  one;
* `AccessGate.Modulus.Factors` – the **two primes** and what goes with them;
* `AccessGate.Modulus.isUndoneBy` – does an exponent **undo** the public one, the factors being
  known? `AccessGate.Modulus.isUndoneAlone` is the same without them.
-/

namespace AccessGate

/-- The public half of a pair. -/
structure Modulus where
  modulus : Nat
  exponent : Nat
deriving DecidableEq, Repr

namespace Modulus

/-- The exponent is odd, above one and below the modulus. -/
def isSound (m : Modulus) : Bool :=
  decide (3 ≤ m.exponent) && decide (m.exponent < m.modulus) && m.exponent % 2 == 1

/-- The two factors of a modulus, the private exponent reduced for either, and the inverse of the
second factor modulo the first. -/
structure Factors where
  p : Nat
  q : Nat
  forP : Nat
  forQ : Nat
  inverse : Nat
deriving DecidableEq, Repr

/-- Does one exponent undo the other, where the modulus is `p * q`? -/
def isUndone (m : Modulus) (d p q : Nat) : Bool :=
  decide (d < m.modulus) && p % 2 == 1 && q % 2 == 1 && p * q == m.modulus &&
    Modular.isPrime p && Modular.isPrime q && p != q &&
    d * m.exponent % Nat.lcm (p - 1) (q - 1) == 1

/-- Does an exponent undo the public one, and do the factors with all their numbers fit? -/
def isUndoneBy (m : Modulus) (d : Nat) (f : Factors) : Bool :=
  m.isSound && m.isUndone d f.p f.q && f.forP == d % (f.p - 1) && f.forQ == d % (f.q - 1) &&
    decide (f.inverse < f.p) && f.inverse * f.q % f.p == 1

/-- Does an exponent undo the public one? It is tried first, and then used to find the factors. -/
def isUndoneAlone (m : Modulus) (d : Nat) : Bool :=
  m.isSound && decide (17 < m.modulus) &&
    Modular.power m.modulus 17 (d * m.exponent) == 17 &&
    (Modular.factor? m.modulus (d * m.exponent - 1)).any fun p =>
      m.isUndone d p (m.modulus / p)

end Modulus

end AccessGate
