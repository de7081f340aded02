import AccessGate.Number.Rounding

/-!
# Double-precision numbers, exactly

A double is kept as the three fields it is stored in: a sign, an exponent field and a fraction
field. Read as a number it is a whole number of *quanta* of `2 ^ -1074`, the smallest positive
double, so that every comparison and every rounding of this library is done in whole numbers:

* `AccessGate.Double` – the **numbers themselves**, one value for each number and one for "not a
  number"; the two zeros differ in their sign;
* `AccessGate.Double.magnitude` – the **absolute value** of a finite double, in quanta;
* `AccessGate.Double.ofRatio` – the double **nearest to a quotient**, a half going to the even
  neighbour; past the largest double it is infinite;
* `AccessGate.Double.add` and `AccessGate.Double.mul` – the **sum** and the **product** of two
  doubles: the double nearest to the exact result;
* `AccessGate.Point` – the **extended number line** on which whole numbers and doubles are compared.
-/

namespace AccessGate

/-- A double-precision number. The exponent field of a finite one stops short of `2047`, which
marks the infinities and the one value that is not a number. -/
inductive Double where
  | finite (negative : Bool) (exponent : Fin 2047) (fraction : Fin (Nat.pow 2 52))
  | infinite (negative : Bool)
  | nan
deriving DecidableEq, Repr

/-- How many quanta make one. -/
def quantaPerUnit : Nat := Nat.pow 2 1074

namespace Double

/-- The absolute value in quanta that the exponent and fraction fields stand for. The first
exponent field means that no leading one is implied. -/
def fieldQuanta (exponent : Fin 2047) (fraction : Fin (Nat.pow 2 52)) : Nat :=
  if exponent.val = 0 then fraction.val
  else (Nat.pow 2 52 + fraction.val) * Nat.pow 2 (exponent.val - 1)

/-- The absolute value in quanta; `none` for an infinity and for what is not a number. -/
def magnitude : Double → Option Nat
  | finite _ e f => some (fieldQuanta e f)
  | infinite _ => none
  | nan => none

/-- The value in quanta, with its sign. -/
def quanta : Double → Option Int
  | finite negative e f =>
      some (if negative then -(fieldQuanta e f : Int) else (fieldQuanta e f : Int))
  | infinite _ => none
  | nan => none

/-- The doubles of one sign in order, from zero; the first place past the largest one holds the
infinity. -/
def ofRank (negative : Bool) (rank : Nat) : Double :=
  if h : rank / Nat.pow 2 52 < 2047 then
    finite negative ⟨rank / Nat.pow 2 52, h⟩
      ⟨rank % Nat.pow 2 52, Nat.mod_lt _ (Nat.two_pow_pos 52)⟩
  else infinite negative

/-- The double nearest to `n / d`. The quotient is rounded to a whole number of steps, a step being
the distance of neighbouring doubles of that size. -/
def ofRatio (negative : Bool) (n d : Nat) : Double :=
  let step := Nat.log2 (n * quantaPerUnit / d) - 52
  ofRank negative (step * Nat.pow 2 52 + nearest (n * quantaPerUnit) (d * Nat.pow 2 step))

/-- The double nearest to a whole number. -/
def ofInt (n : Int) : Double := ofRatio (decide (n < 0)) n.natAbs 1

/-- The double nearest to `mantissa * 10 ^ exponent`. A numeral far out of range is not computed:
it is infinite or zero already. -/
def ofDecimal (negative : Bool) (mantissa : Nat) (exponent : Int) : Double :=
  let digits : Int := (Nat.log2 mantissa : Int) * 3 / 10
  if mantissa = 0 then ofRank negative 0
  else if 400 < exponent + digits then infinite negative
  else if exponent + digits < -800 then ofRank negative 0
  else if 0 ≤ exponent then ofRatio negative (mantissa * Nat.pow 10 exponent.toNat) 1
  else ofRatio negative mantissa (Nat.pow 10 (-exponent).toNat)

def isFinite : Double → Bool
  | finite _ _ _ => true
  | _ => false

/-- The double nearest to a whole number, unless that is past the largest one. -/
def ofInt? (n : Int) : Option Double :=
  let x := ofInt n
  if x.isFinite then some x else none

def isNegative : Double → Bool
  | finite negative _ _ => negative
  | infinite negative => negative
  | nan => false

/-- Both zeros are zero. -/
def isZero (x : Double) : Bool := x.magnitude == some 0

/-- The whole number nearest to a finite double, a half going to the even neighbour. -/
def round? (x : Double) : Option Int :=
  x.magnitude.map fun q =>
    let n : Int := nearest q quantaPerUnit
    if x.isNegative then -n else n

/-- A finite double without its fractional part. -/
def truncate? (x : Double) : Option Int :=
  x.magnitude.map fun q =>
    let n : Int := (q / quantaPerUnit : Nat)
    if x.isNegative then -n else n

/-- Is the double a whole number? -/
def isWhole (x : Double) : Bool := x.magnitude.any (· % quantaPerUnit == 0)

/-! ### Sums and products -/

/-- The double on the other side of zero. -/
def neg : Double → Double
  | finite negative e f => finite (!negative) e f
  | infinite negative => infinite (!negative)
  | nan => nan

/-- The double nearest to the exact sum, which is a whole number of quanta. A sum of zero is the
negative zero only if both terms are. The two infinities have no sum. -/
def add (x y : Double) : Double :=
  match x.quanta, y.quanta with
  | some p, some q =>
      let negative := if p + q = 0 then x.isNegative && y.isNegative else decide (p + q < 0)
      ofRatio negative (p + q).natAbs quantaPerUnit
  | some _, none => y
  | none, some _ => x
  | none, none => if x = y then x else nan

/-- The double nearest to the exact product. An infinity and a zero have none. -/
def mul (x y : Double) : Double :=
  let negative := x.isNegative != y.isNegative
  match x.magnitude, y.magnitude with
  | some p, some q => ofRatio negative (p * q) (quantaPerUnit * quantaPerUnit)
  | _, _ => if x = nan ∨ y = nan ∨ x.isZero ∨ y.isZero then nan else infinite negative

end Double

/-! ### Comparison -/

/-- A point of the extended number line; finite points are counted in quanta. -/
inductive Point where
  | bottom
  | at (quanta : Int)
  | top
deriving DecidableEq, Repr

namespace Point

def ofInt (n : Int) : Point := .at (n * quantaPerUnit)

/-- The place of a double; what is not a number has none. -/
def ofDouble? : Double → Option Point
  | .nan => none
  | .infinite negative => some (if negative then .bottom else .top)
  | .finite negative e f => ((Double.finite negative e f).quanta).map .at

def lt : Point → Point → Bool
  | .at a, .at b => decide (a < b)
  | .bottom, .bottom => false
  | .bottom, _ => true
  | .at _, .top => true
  | _, _ => false

end Point

end AccessGate
