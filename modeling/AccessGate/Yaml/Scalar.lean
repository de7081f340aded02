import AccessGate.Number.Whole
import AccessGate.Value.Basic
import AccessGate.Yaml.Cell

/-!
# Plain scalars of YAML

A scalar without quotes is whatever it looks like: nothing, a truth value, a whole number, a double,
and a text if it looks like none of these.

* `AccessGate.Yaml.scalarValue` – the **value of a plain scalar**;
* `AccessGate.Yaml.whole?` – **whole numbers** in base two, eight, ten and sixteen, and as groups in
  base sixty;
* `AccessGate.Yaml.double?` – **doubles**, which need a point, and a sign in the exponent; groups in
  base sixty are added up as doubles.

Digits may be set apart by underscores.
-/

namespace AccessGate.Yaml

/-! ### Digits -/

/-- The value of a digit in a base up to sixteen. -/
def digit? (base : Nat) (c : Char) : Option Nat :=
  let value :=
    if '0' ≤ c ∧ c ≤ '9' then some (c.toNat - 48)
    else if 'a' ≤ c ∧ c ≤ 'f' then some (c.toNat - 87)
    else if 'A' ≤ c ∧ c ≤ 'F' then some (c.toNat - 55)
    else none
  value.filter (· < base)

/-- The number of digits in a base, underscores left out. -/
def number? (base : Nat) (cs : List Char) : Option Nat := do
  let digits ← (cs.filter (· ≠ '_')).mapM (digit? base)
  if digits.isEmpty then none else some (digits.foldl (fun n d => base * n + d) 0)

/-- A sign, and what follows it. -/
def signed : List Char → Bool × List Char
  | '-' :: cs => (true, cs)
  | '+' :: cs => (false, cs)
  | cs => (false, cs)

/-- A group in base sixty: one digit, or two of which the first is below six. -/
def group? : List Char → Option Nat
  | [c] => digit? 10 c
  | [c, d] => do
      let tens ← digit? 6 c
      let ones ← digit? 10 d
      return tens * 10 + ones
  | _ => none

/-- The number of groups in base sixty, of which the first may be any number. -/
def groups? (pieces : List (List Char)) : Option Nat :=
  match pieces with
  | first :: rest => do
      let start ← number? 10 first
      let more ← rest.mapM group?
      return more.foldl (fun n g => 60 * n + g) start
  | [] => none

/-! ### Numbers -/

/-- The absolute value of a whole number. -/
def magnitude? : List Char → Option Nat
  | ['0'] => some 0
  | '0' :: 'b' :: cs => number? 2 cs
  | '0' :: 'x' :: cs => number? 16 cs
  | '0' :: cs => number? 8 ('0' :: cs)
  | c :: cs =>
      if c.isDigit then
        match Text.piecesOf ':' (c :: cs) with
        | [only] => number? 10 only
        | pieces => groups? pieces
      else none
  | [] => none

/-- A whole number. -/
def whole? (cs : List Char) : Option Int :=
  let (negative, digits) := signed cs
  (magnitude? digits).map fun n => if negative then -(n : Int) else n

/-- An exponent, which has a sign, or nothing. -/
def exponent? : List Char → Option Int
  | [] => some 0
  | e :: sign :: cs =>
      if (e = 'e' ∨ e = 'E') ∧ (sign = '+' ∨ sign = '-') ∧ cs.all Char.isDigit then
        (number? 10 cs).map fun n => if sign = '-' then -(n : Int) else n
      else none
  | _ => none

/-- May the character stand among digits? -/
def isDigitOrGap (c : Char) : Bool := c.isDigit || c == '_'

/-- The double with the given number before its point and the given characters after it. -/
def afterPoint? (negative : Bool) (start : Nat) (cs : List Char) : Option Double := do
  let fraction := (cs.takeWhile isDigitOrGap).filter (· ≠ '_')
  let e ← exponent? (cs.dropWhile isDigitOrGap)
  let digits ← fraction.mapM (digit? 10)
  let mantissa := digits.foldl (fun n d => 10 * n + d) start
  return Double.ofDecimal negative mantissa (e - fraction.length)

/-- The groups of a number in base sixty, the last of which has the given characters after its
point. That one comes first here. -/
def fractionGroups? (pieces : List (List Char)) (after : List Char) : Option (List Double) :=
  match pieces with
  | first :: rest => do
      let start ← number? 10 first
      let more ← rest.mapM group?
      let ones ← more.getLast?
      let last ← afterPoint? false ones after
      return last :: (start :: more.dropLast).reverse.map fun (n : Nat) => Double.ofInt n
  | [] => none

/-- Groups added to a sum of doubles, the first of them with the given weight, and each that follows
with sixty times the weight of the one before. A weight has to be within the range of doubles. -/
def addGroups (sum : Double) (weight : Nat) : List Double → Except Flaw Double
  | [] => .ok sum
  | g :: groups =>
      match Double.ofInt? weight with
      | some w => addGroups (sum.add (g.mul w)) (60 * weight) groups
      | none => .error .numberTooLarge

/-- The double that groups in base sixty are. -/
def ofGroups (negative : Bool) (groups : List Double) : Except Flaw Double :=
  (addGroups (Double.ofInt 0) 1 groups).map fun x => if negative then x.neg else x

/-- A double. Without digits before the point it has at least one after it, and no sign. -/
def double? (cs : List Char) : Option (Except Flaw Double) :=
  let (negative, rest) := signed cs
  let front := rest.takeWhile fun c => isDigitOrGap c || c == ':'
  match rest.drop front.length with
  | '.' :: after =>
      match front with
      | [] =>
          if after ∈ ["inf".toList, "Inf".toList, "INF".toList] then
            some (.ok (.infinite negative))
          else if cs ∈ [".nan".toList, ".NaN".toList, ".NAN".toList] then some (.ok .nan)
          else if rest = cs && (after.head?.map Char.isDigit).getD false then
            (afterPoint? false 0 after).map .ok
          else none
      | c :: _ =>
          if c.isDigit then
            match Text.piecesOf ':' front with
            | [only] => (number? 10 only).bind fun n => (afterPoint? negative n after).map .ok
            | pieces =>
                if after.all isDigitOrGap then
                  (fractionGroups? pieces after).map (ofGroups negative)
                else none
          else none
  | _ => none

/-! ### Scalars -/

/-- The texts that stand for nothing. -/
def nulls : List String := ["", "~", "null", "Null", "NULL"]

/-- The texts that say yes. -/
def yes : List String :=
  ["yes", "Yes", "YES", "true", "True", "TRUE", "on", "On", "ON"]

/-- The texts that say no. -/
def no : List String := ["no", "No", "NO", "false", "False", "FALSE", "off", "Off", "OFF"]

/-- The text that takes the members of another mapping over, where it is a key. -/
def mergeMark : String := "<<"

/-- The text that stands for a value of its own, where it is no key. -/
def valueMark : String := "="

/-- Are the characters a number in base two or sixteen whose digits are all left out? -/
def lacksDigits (cs : List Char) : Bool :=
  match (signed cs).2 with
  | '0' :: base :: rest =>
      (base == 'b' || base == 'x') && !rest.isEmpty && rest.all (· == '_')
  | _ => false

/-- Are the characters of a whole number more digits in base ten than are read? In groups in base
sixty those of the first group count, as the others are short. Other bases have no limit. -/
def hasTooManyDigits (cs : List Char) : Bool :=
  match (signed cs).2 with
  | '0' :: _ => false
  | rest =>
      let first := rest.takeWhile (· ≠ ':')
      decide (Whole.mostDigits < (first.filter (· ≠ '_')).length)

/-- The value of a plain scalar that is no mark. -/
def plainValue (s : String) : Except Flaw Value :=
  if nulls.contains s then .ok .null
  else if yes.contains s then .ok (.bool true)
  else if no.contains s then .ok (.bool false)
  else if lacksDigits s.toList then .error .noDigits
  else
    match whole? s.toList with
    | some n => if hasTooManyDigits s.toList then .error .tooManyDigits else .ok (.int n)
    | none =>
        match double? s.toList with
        | some x => x.map .float
        | none => .ok (.text s)

/-- The value of a plain scalar. A mark has none. -/
def scalarValue (s : String) : Except Flaw Value :=
  if s = mergeMark ∨ s = valueMark then .error .malformed else plainValue s

/-- The key that a plain scalar is. -/
def scalarKey (s : String) : Except Flaw Value :=
  if s = valueMark then .ok (.text s) else scalarValue s

end AccessGate.Yaml
