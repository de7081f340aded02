import AccessGate.Number.Double

/-!
# Decimal numerals of doubles

Two ways of writing a double in decimal, both computed from its exact value.

* `AccessGate.Shortest.digits` – the **shortest numeral that reads back**. Every double is
  surrounded by an interval of numbers that round to it. The numeral is taken from the coarsest
  decimal grid with a point in that interval: no shorter numeral reads back, and of the points of
  that grid the nearest to the double is taken.
* `AccessGate.Double.text` – that numeral laid out: positional while the point stands near the
  digits, and with an exponent otherwise (`AccessGate.PointRange`).
* `AccessGate.Double.sixPlaces` – the value rounded to **six decimal places**, a half going to the
  even neighbour.
-/

namespace AccessGate

/-! ### The shortest numeral -/

namespace Shortest

/-- The numbers that round to a double, in quarters of a quantum. An interval reaches half a step
up, and half a step down or, below a power of two, a quarter of one; its ends belong to it when the
double is even. -/
structure Interval where
  low : Nat
  value : Nat
  high : Nat
  closed : Bool
deriving DecidableEq, Repr

def Interval.of (exponent : Fin 2047) (fraction : Fin (Nat.pow 2 52)) : Interval :=
  let value := 4 * Double.fieldQuanta exponent fraction
  let step := Nat.pow 2 (exponent.val - 1)
  let down := if fraction.val = 0 ∧ 1 < exponent.val then step else 2 * step
  { low := value - down
    value := value
    high := value + 2 * step
    closed := fraction.val % 2 = 0 }

/-- A decimal grid: its points are the multiples of `unit`, in parts of `1 / scale` of a quarter
quantum. -/
structure Grid where
  scale : Nat
  unit : Nat

/-- The multiples of `10 ^ exponent`. -/
def Grid.ofExponent (exponent : Int) : Grid :=
  if 0 ≤ exponent then ⟨1, 4 * quantaPerUnit * Nat.pow 10 exponent.toNat⟩
  else ⟨Nat.pow 10 (-exponent).toNat, 4 * quantaPerUnit⟩

/-- Does the point number `n` of the grid round to the double? -/
def Interval.holds (i : Interval) (g : Grid) (n : Nat) : Bool :=
  let at_ := n * g.unit
  if i.closed then decide (i.low * g.scale ≤ at_) && decide (at_ ≤ i.high * g.scale)
  else decide (i.low * g.scale < at_) && decide (at_ < i.high * g.scale)

/-- The point of the grid nearest to the double among those that round to it. It is enough to ask
the two neighbours of the double. -/
def Interval.pick (i : Interval) (g : Grid) : Option Nat :=
  let below := i.value * g.scale / g.unit
  match i.holds g below, i.holds g (below + 1) with
  | true, true => some (nearest (i.value * g.scale) g.unit)
  | true, false => some below
  | false, true => some (below + 1)
  | false, false => none

/-- The exponent of the coarsest grid asked: no double reaches ten times its unit. -/
def coarsest : Int := 308

/-- From the coarsest grid to finer ones, the first with a point that rounds to the double. -/
def search (i : Interval) : (grids : Nat) → (exponent : Int) → Nat × Int
  | 0, exponent => (0, exponent)
  | grids + 1, exponent =>
      match i.pick (Grid.ofExponent exponent) with
      | some n => (n, exponent)
      | none => search i grids (exponent - 1)

/-- The shortest numeral `n * 10 ^ e` that rounds to a positive double. A grid of `10 ^ -324` has a
point in every interval, hence the number of grids. -/
def digits (exponent : Fin 2047) (fraction : Fin (Nat.pow 2 52)) : Nat × Int :=
  search (Interval.of exponent fraction) 633 coarsest

end Shortest

/-! ### Layout -/

/-- Where a numeral is written positionally: its point stands after at least `least` and at most
`most` of its digits, counted from the first one; before the first digit the count is negative. -/
structure PointRange where
  least : Int
  most : Int

/-- Numerals are positional from `0.0001` up to, but not including, `10 ^ 16`. -/
def plainRange : PointRange := ⟨-3, 16⟩

/-- At least two digits. -/
def twoDigits (n : Nat) : String := if n < 10 then "0" ++ toString n else toString n

/-- The digits `ds` with the point after `place` of them. A whole number keeps one zero after its
point; in a numeral with an exponent it has none. -/
def layOut (range : PointRange) (ds : String) (place : Int) : String :=
  let count := ds.length
  if range.least ≤ place ∧ place ≤ range.most then
    if place ≤ 0 then "0." ++ String.ofList (List.replicate (-place).toNat '0') ++ ds
    else if count ≤ place.toNat then
      ds ++ String.ofList (List.replicate (place.toNat - count) '0') ++ ".0"
    else
      String.ofList (ds.toList.take place.toNat) ++ "." ++
        String.ofList (ds.toList.drop place.toNat)
  else
    let head := String.ofList (ds.toList.take 1)
    let tail := String.ofList (ds.toList.drop 1)
    let exponent := place - 1
    head ++ (if tail.isEmpty then "" else "." ++ tail) ++ "e" ++
      (if exponent < 0 then "-" else "+") ++ twoDigits exponent.natAbs

/-- The digits after the zeros in front. -/
def dropZeros : List Char → List Char
  | '0' :: rest => dropZeros rest
  | ds => ds

namespace Double

/-- The shortest text that reads back as the double. -/
def text : Double → String
  | .nan => "nan"
  | .infinite negative => if negative then "-inf" else "inf"
  | .finite negative exponent fraction =>
      let sign := if negative then "-" else ""
      if fieldQuanta exponent fraction = 0 then sign ++ "0.0"
      else
        let (n, e) := Shortest.digits exponent fraction
        let all := toString n
        let significant := String.ofList (dropZeros all.toList.reverse).reverse
        sign ++ layOut plainRange significant (all.length + e)

/-! ### Six places -/

/-- A whole number of millionths with its point. -/
def placed (millionths : Nat) : String :=
  let rest := toString (millionths % 1000000)
  toString (millionths / 1000000) ++ "." ++
    String.ofList (List.replicate (6 - rest.length) '0') ++ rest

/-- The double rounded to six decimal places. -/
def sixPlaces : Double → String
  | .nan => "nan"
  | .infinite negative => if negative then "-inf" else "inf"
  | .finite negative exponent fraction =>
      (if negative then "-" else "") ++
        placed (nearest (fieldQuanta exponent fraction * 1000000) quantaPerUnit)

end Double

end AccessGate
