import AccessGate.Number.Whole
import AccessGate.Text.Encoding
import AccessGate.Value.Basic

/-!
# Reading JSON

One JSON value, blanks around it, and nothing else. Whole numbers stay whole, and must not have too
many digits (`AccessGate.Whole.ofDigits?`); a number with a fraction or an exponent is a double;
`NaN` and `Infinity` are read as well. Of members with equal names the last one counts.

* `AccessGate.Json.read` and `AccessGate.Json.readBytes` – the value **of a text**, and **of bytes**
  in any encoding that JSON allows;
* `AccessGate.Json.Unreadable` – **why there is none**: whatever is found first, from the front;
* `AccessGate.Json.ofText?` and `AccessGate.Json.ofBytes?` – the values **where it does not
  matter** why there is none.

Every step of the reader takes at least one character for two steps, which bounds their number.

A text is a row of characters, and one half of a surrogate pair is no character. JSON can write a
half that stands alone all the same. Texts with such a half are not treated here, and JSON that
holds one is not read.
-/

namespace AccessGate.Json

/-- Why there is no value: the bytes are in no encoding that is known, the text is not JSON, or a
whole number has too many digits. -/
inductive Unreadable where
  | notText
  | malformed
  | tooManyDigits
deriving DecidableEq, Repr

namespace Reader

/-- The blanks of JSON. -/
def isBlank (c : Char) : Bool := c == ' ' || c == '\t' || c == '\n' || c == '\r'

/-- The characters from the first that is not blank. -/
def skip : List Char → List Char
  | [] => []
  | c :: rest => if isBlank c then skip rest else c :: rest

/-! ### Texts -/

/-- The value of a digit in base sixteen. -/
def hexDigit? (c : Char) : Option Nat :=
  if '0' ≤ c ∧ c ≤ '9' then some (c.toNat - 48)
  else if 'a' ≤ c ∧ c ≤ 'f' then some (c.toNat - 87)
  else if 'A' ≤ c ∧ c ≤ 'F' then some (c.toNat - 55)
  else none

/-- The number of four digits in base sixteen. -/
def hex4? (a b c d : Char) : Option Nat := do
  let w ← hexDigit? a
  let x ← hexDigit? b
  let y ← hexDigit? c
  let z ← hexDigit? d
  return ((w * 16 + x) * 16 + y) * 16 + z

/-- The character that a short escape stands for. -/
def shortEscape? (c : Char) : Option Char :=
  if c = '"' ∨ c = '\\' ∨ c = '/' then some c
  else if c = 'b' then some '\x08'
  else if c = 'f' then some '\x0c'
  else if c = 'n' then some '\n'
  else if c = 'r' then some '\r'
  else if c = 't' then some '\t'
  else none

/-- The code points of a text up to its closing quote, and what follows the quote. An escape of
four digits may be one half of a surrogate pair. -/
def codes : List Char → Option (List Nat × List Char)
  | [] => none
  | '"' :: rest => some ([], rest)
  | '\\' :: 'u' :: a :: b :: c :: d :: rest => do
      let code ← hex4? a b c d
      let (more, after) ← codes rest
      return (code :: more, after)
  | '\\' :: e :: rest => do
      let c ← shortEscape? e
      let (more, after) ← codes rest
      return (c.toNat :: more, after)
  | c :: rest =>
      if c = '\\' ∨ c.toNat < 32 then none
      else do
        let (more, after) ← codes rest
        return (c.toNat :: more, after)

/-- A text after its opening quote. A half of a pair has to stand before or after its other half. -/
def text (cs : List Char) : Option (String × List Char) := do
  let (points, rest) ← codes cs
  let found ← Text.ofUnits16? points
  return (String.ofList found, rest)

/-! ### Numbers -/

/-- The digits at the front, as values. -/
def digits : List Char → List Nat × List Char
  | [] => ([], [])
  | c :: rest =>
      match Text.asciiDigit? c with
      | some d => let (ds, after) := digits rest; (d :: ds, after)
      | none => ([], c :: rest)

/-- The digits of a whole number: a zero stands alone. -/
def whole : List Char → Option (List Nat × List Char)
  | '0' :: rest => some ([0], rest)
  | cs =>
      match digits cs with
      | ([], _) => none
      | found => some found

/-- The digits after a point. A point without digits does not belong to the number. -/
def fraction : List Char → List Nat × List Char
  | '.' :: rest =>
      match digits rest with
      | ([], _) => ([], '.' :: rest)
      | found => found
  | cs => ([], cs)

/-- The digits of an exponent after its sign. -/
def exponentDigits (negative : Bool) (cs : List Char) : Option (Int × List Char) :=
  match digits cs with
  | ([], _) => none
  | (ds, after) =>
      let n : Int := Text.ofDigits ds
      some (if negative then -n else n, after)

/-- An exponent. Without digits it does not belong to the number. -/
def exponent? : List Char → Option (Int × List Char)
  | c :: rest =>
      if c = 'e' ∨ c = 'E' then
        match rest with
        | '-' :: more => exponentDigits true more
        | '+' :: more => exponentDigits false more
        | more => exponentDigits false more
      else none
  | [] => none

/-- What is found, or else the text is not JSON. -/
def expect {α : Type} : Option α → Except Unreadable α
  | some a => .ok a
  | none => .error .malformed

/-- A whole number with its sign, in front of what follows it. -/
def signedWhole (negative : Bool) (ds : List Nat) (after : List Char) :
    Except Unreadable (Value × List Char) :=
  match Whole.ofDigits? ds with
  | some n => .ok (.int (if negative then -(n : Int) else n), after)
  | none => .error .tooManyDigits

/-- A number after its sign. -/
def magnitude (negative : Bool) (cs : List Char) : Except Unreadable (Value × List Char) := do
  let (ds, afterWhole) ← expect (whole cs)
  let (fs, afterFraction) := fraction afterWhole
  match exponent? afterFraction with
  | some (e, rest) =>
      return (.float (Double.ofDecimal negative (Text.ofDigits (ds ++ fs)) (e - fs.length)), rest)
  | none =>
      if fs.isEmpty then signedWhole negative ds afterFraction
      else
        return (.float (Double.ofDecimal negative (Text.ofDigits (ds ++ fs)) (-fs.length)),
          afterFraction)

/-! ### Values -/

mutual

/-- A value at the front, and what follows it. -/
def value : Nat → List Char → Except Unreadable (Value × List Char)
  | 0, _ => .error .malformed
  | steps + 1, cs =>
      match cs with
      | '"' :: rest => (expect (text rest)).map fun (s, after) => (.text s, after)
      | '\x7b' :: rest =>
          match skip rest with
          | '\x7d' :: after => .ok (.mapping [], after)
          | more =>
              (members steps more).map fun (ms, after) => (.mapping (Members.ofPairs ms), after)
      | '[' :: rest =>
          match skip rest with
          | ']' :: after => .ok (.list [], after)
          | more => (items steps more).map fun (xs, after) => (.list xs, after)
      | 'n' :: 'u' :: 'l' :: 'l' :: rest => .ok (.null, rest)
      | 't' :: 'r' :: 'u' :: 'e' :: rest => .ok (.bool true, rest)
      | 'f' :: 'a' :: 'l' :: 's' :: 'e' :: rest => .ok (.bool false, rest)
      | 'N' :: 'a' :: 'N' :: rest => .ok (.float .nan, rest)
      | 'I' :: 'n' :: 'f' :: 'i' :: 'n' :: 'i' :: 't' :: 'y' :: rest =>
          .ok (.float (.infinite false), rest)
      | '-' :: 'I' :: 'n' :: 'f' :: 'i' :: 'n' :: 'i' :: 't' :: 'y' :: rest =>
          .ok (.float (.infinite true), rest)
      | '-' :: rest => magnitude true rest
      | rest => magnitude false rest

/-- The items of a list up to its closing bracket. -/
def items : Nat → List Char → Except Unreadable (List Value × List Char)
  | 0, _ => .error .malformed
  | steps + 1, cs => do
      let (x, after) ← value steps cs
      match skip after with
      | ',' :: rest =>
          let (xs, close) ← items steps (skip rest)
          return (x :: xs, close)
      | ']' :: rest => return ([x], rest)
      | _ => .error .malformed

/-- The members of a mapping up to its closing brace. -/
def members : Nat → List Char → Except Unreadable (List (Value × Value) × List Char)
  | 0, _ => .error .malformed
  | steps + 1, cs =>
      match cs with
      | '"' :: named => do
          let (name, afterName) ← expect (text named)
          match skip afterName with
          | ':' :: rest =>
              let (v, after) ← value steps (skip rest)
              match skip after with
              | ',' :: more =>
                  let (ms, close) ← members steps (skip more)
                  return ((.text name, v) :: ms, close)
              | '\x7d' :: close => return ([(.text name, v)], close)
              | _ => .error .malformed
          | _ => .error .malformed
      | _ => .error .malformed

end

end Reader

/-- The value that a text holds. -/
def read (s : String) : Except Unreadable Value := do
  let cs := s.toList
  let (v, rest) ← Reader.value (2 * cs.length + 2) (Reader.skip cs)
  if (Reader.skip rest).isEmpty then return v else throw .malformed

/-- The value that bytes hold. -/
def readBytes (bs : List UInt8) : Except Unreadable Value :=
  match Text.ofUnmarked? bs with
  | some s => read s
  | none => .error .notText

def ofText? (s : String) : Option Value := (read s).toOption

def ofBytes? (bs : List UInt8) : Option Value := (readBytes bs).toOption

end AccessGate.Json
