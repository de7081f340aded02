/-!
# Arithmetic modulo a number

* `AccessGate.Modular.power` – **powers**, by squaring;
* `AccessGate.Modular.strangeRoot?` – a **square root of one** that is neither one nor minus one. A
  prime has none, and one of them takes a product of two primes apart;
* `AccessGate.Modular.isPrime` – is a number taken for a **prime**?
-/

namespace AccessGate.Modular

/-- The power `b ^ e`, modulo `m`. -/
def power (m b e : Nat) : Nat :=
  if e = 0 then 1 % m
  else
    let root := power m b (e / 2)
    let square := root * root % m
    if e % 2 = 0 then square else square * b % m
termination_by e

/-- Going down from `a ^ e` by halving the exponent as long as the power is one and the exponent
even: the power that is met first and is not one, if it is a root of one but not minus one. -/
def strangeRoot? (m a e : Nat) : Option Nat :=
  let x := power m a e
  if x = 1 then if 0 < e ∧ e % 2 = 0 then strangeRoot? m a (e / 2) else none
  else if x ≠ m - 1 ∧ x * x % m = 1 then some x
  else none
termination_by e
decreasing_by omega

/-- The bases that a prime is tried with. -/
def bases : List Nat := [2, 3, 5, 7, 11, 13, 17, 19, 23, 29, 31, 37, 41, 43, 47, 53]

/-- Does a number behave as a prime with a base? -/
def isPrimeFor (n a : Nat) : Bool :=
  power n a (n - 1) == 1 && (strangeRoot? n a ((n - 1) / 2)).isNone

/-- Is a number taken for a prime? Every prime is. Of the others, those of up to eighty bits are
not, and hardly any that is larger. -/
def isPrime (n : Nat) : Bool :=
  bases.contains n ||
    (decide (1 < n) && bases.all (fun a => n % a ≠ 0) && bases.all (isPrimeFor n))

/-- A proper factor of a number, found by an exponent that brings every base to one. -/
def factor? (n e : Nat) : Option Nat :=
  bases.findSome? fun a => (strangeRoot? n a (e / 2)).map fun x => Nat.gcd (x + 1) n

end AccessGate.Modular
