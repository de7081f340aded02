import AccessGate.Number.Decimal
import AccessGate.Number.Whole
import AccessGate.Text.Printable
import AccessGate.Value.Basic

/-!
# Values as text

How a value reads in a message, and as an item that has to become a string. A whole number that has
too many digits has no text (`AccessGate.Whole.text?`), and neither has anything that it is in.

* `AccessGate.Value.display?` – the **plain text**: a text stands for itself;
* `AccessGate.Value.quoted?` – the **text inside a container**, where a text is quoted, so that the
  end of each item can be seen;
* `AccessGate.Value.kind` – the **name of its kind**, for messages that need no more than that;
* `AccessGate.Quote` – the **choice of the quote**: a single one, unless the text holds single
  quotes and no double ones.
-/

namespace AccessGate

/-! ### Quotes and escapes -/

namespace Quote

/-- The digits of `n` in base sixteen, at least `width` of them. -/
def hex (width n : Nat) : String :=
  let ds := String.ofList (Nat.toDigits 16 n)
  String.ofList (List.replicate (width - ds.length) '0') ++ ds

/-- The quote around a text with the given characters. -/
def around (cs : List Char) : Char := if cs.contains '\'' && !cs.contains '"' then '"' else '\''

/-- A character between quotes. What is not printable is written by its number. -/
def escape (quote c : Char) : String :=
  if c = quote ∨ c = '\\' then "\\" ++ String.singleton c
  else if c = '\n' then "\\n"
  else if c = '\r' then "\\r"
  else if c = '\t' then "\\t"
  else if Text.isPrintable c then String.singleton c
  else if c.toNat < 256 then "\\x" ++ hex 2 c.toNat
  else if c.toNat < 65536 then "\\u" ++ hex 4 c.toNat
  else "\\U" ++ hex 8 c.toNat

/-- A text between quotes. -/
def text (s : String) : String :=
  let quote := around s.toList
  String.singleton quote ++ String.join (s.toList.map (escape quote)) ++ String.singleton quote

/-- A byte between quotes; only ASCII is printable. -/
def escapeByte (quote : Char) (b : UInt8) : String :=
  if b < 128 then
    let c := Char.ofNat b.toNat
    if c = '\n' ∨ c = '\r' ∨ c = '\t' then escape quote c
    else if 32 ≤ b ∧ b < 127 then escape quote c
    else "\\x" ++ hex 2 b.toNat
  else "\\x" ++ hex 2 b.toNat

/-- A byte string between quotes, marked by a `b`. -/
def bytes (bs : List UInt8) : String :=
  let quote := around (bs.map fun b => Char.ofNat b.toNat)
  "b" ++ String.singleton quote ++ String.join (bs.map (escapeByte quote)) ++
    String.singleton quote

end Quote

/-! ### Values -/

namespace Value

mutual

/-- The text of a value inside a container. -/
def quoted? : Value → Option String
  | .null => some "None"
  | .bool b => some (if b then "True" else "False")
  | .int n => Whole.text? n
  | .float x => some x.text
  | .text s => some (Quote.text s)
  | .bytes bs => some (Quote.bytes bs)
  | .list xs => do
      let items ← quotedItems? xs
      return "[" ++ ", ".intercalate items ++ "]"
  | .tuple xs => do
      match ← quotedItems? xs with
      | [only] => return "(" ++ only ++ ",)"
      | all => return "(" ++ ", ".intercalate all ++ ")"
  | .mapping ms => do
      let members ← quotedMembers? ms
      return "\x7b" ++ ", ".intercalate members ++ "\x7d"
  | .object as => do
      let attributes ← quotedAttributes? as
      return "namespace(" ++ ", ".intercalate attributes ++ ")"

def quotedItems? : List Value → Option (List String)
  | [] => some []
  | x :: xs => do
      let item ← quoted? x
      let items ← quotedItems? xs
      return item :: items

def quotedMembers? : List (Value × Value) → Option (List String)
  | [] => some []
  | (k, v) :: ms => do
      let key ← quoted? k
      let value ← quoted? v
      let members ← quotedMembers? ms
      return (key ++ ": " ++ value) :: members

/-- The attributes of an object; one without a name is not shown. -/
def quotedAttributes? : List (String × Value) → Option (List String)
  | [] => some []
  | (name, v) :: as =>
      if name.isEmpty then quotedAttributes? as
      else do
        let value ← quoted? v
        let attributes ← quotedAttributes? as
        return (name ++ "=" ++ value) :: attributes

end

/-! ### Kinds -/

/-- The name of the kind of a value. -/
def kind : Value → String
  | .null => "NoneType"
  | .bool _ => "bool"
  | .int _ => "int"
  | .float _ => "float"
  | .text _ => "str"
  | .bytes _ => "bytes"
  | .list _ => "list"
  | .tuple _ => "tuple"
  | .mapping _ => "dict"
  | .object _ => "types.SimpleNamespace"

mutual

/-- The kind of the first part of a value that keeps it from being a key. -/
def unkeyed? : Value → Option String
  | .tuple xs => firstUnkeyed? xs
  | v => if v.isKey then none else some v.kind

def firstUnkeyed? : List Value → Option String
  | [] => none
  | x :: xs =>
      match unkeyed? x with
      | some kind => some kind
      | none => firstUnkeyed? xs

end

/-- The text of a value that stands alone. -/
def display? : Value → Option String
  | .text s => some s
  | v => v.quoted?

end Value

end AccessGate
