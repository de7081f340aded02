import AccessGate.Value.Order

/-!
# Writing JSON

JSON without blanks and in ASCII alone, in two orders of members.

* `AccessGate.Json.compact` – members **in their own order**, as token payloads have them;
* `AccessGate.Json.canonical` – members **sorted by key**, code point by code point, so that the
  order in which a mapping was built leaves no trace;
* `AccessGate.Json.Unwritable` – **what has no JSON form**: byte strings, objects, whole numbers of
  too many digits, keys that are no text and cannot become one, and, where they have to be sorted,
  keys that have no common order.

Doubles that are no numbers are written all the same, as `NaN` and `Infinity`.
-/

namespace AccessGate.Json

/-! ### Texts and numbers -/

/-- A character as an escape of four digits, or as two of them above the first 65536. -/
def escapeCode (n : Nat) : String :=
  if n < 0x10000 then "\\u" ++ Quote.hex 4 n
  else
    let offset := n - 0x10000
    "\\u" ++ Quote.hex 4 (0xD800 + offset / 0x400) ++
      "\\u" ++ Quote.hex 4 (0xDC00 + offset % 0x400)

/-- A character of a text. -/
def escape (c : Char) : String :=
  if c = '"' then "\\\""
  else if c = '\\' then "\\\\"
  else if c = '\n' then "\\n"
  else if c = '\r' then "\\r"
  else if c = '\t' then "\\t"
  else if c = '\x0c' then "\\f"
  else if c = '\x08' then "\\b"
  else if 32 ≤ c.toNat ∧ c.toNat < 127 then String.singleton c
  else escapeCode c.toNat

/-- A text in quotes. -/
def quote (s : String) : String := "\"" ++ String.join (s.toList.map escape) ++ "\""

/-- A double by its shortest numeral. -/
def number : Double → String
  | .nan => "NaN"
  | .infinite negative => if negative then "-Infinity" else "Infinity"
  | x => x.text

/-! ### Refusals -/

/-- Why a value has no JSON form. -/
inductive Unwritable where
  | value (kind : String)
  | key (kind : String)
  | tooManyDigits
  | unordered (e : Unordered)
deriving DecidableEq, Repr

/-- The name of the kind of a value, in short. -/
def kindName : Value → String
  | .object _ => "SimpleNamespace"
  | v => v.kind

def Unwritable.message : Unwritable → String
  | .value kind => "Object of type " ++ kind ++ " is not JSON serializable"
  | .key kind => "keys must be str, int, float, bool or None, not " ++ kind
  | .tooManyDigits =>
      "Exceeds the limit (" ++ toString Whole.mostDigits ++ " digits) for integer string " ++
        "conversion; use sys.set_int_max_str_digits() to increase the limit"
  | .unordered e => e.message

/-! ### Whole numbers -/

/-- A whole number with its digits. -/
def whole (n : Int) : Except Unwritable String :=
  match Whole.text? n with
  | some s => .ok s
  | none => .error .tooManyDigits

/-! ### Keys -/

/-- The text a key becomes. -/
def keyText : Value → Except Unwritable String
  | .text s => .ok s
  | .int n => whole n
  | .float x => .ok (number x)
  | .bool b => .ok (if b then "true" else "false")
  | .null => .ok "null"
  | v => .error (.key (kindName v))

/-- The members in the order they are written in. -/
def arrange {α : Type} (sorted : Bool) (ms : List (Value × α)) :
    Except Unwritable (List (Value × α)) :=
  if sorted then (Order.sort ms).mapError .unordered else .ok ms

/-! ### Values -/

mutual

/-- The JSON form of a value, members sorted if `sorted`. -/
def write (sorted : Bool) : Value → Except Unwritable String
  | .null => .ok "null"
  | .bool b => .ok (if b then "true" else "false")
  | .int n => whole n
  | .float x => .ok (number x)
  | .text s => .ok (quote s)
  | .bytes _ => .error (.value "bytes")
  | .list xs => do
      let items ← writeItems sorted xs
      return "[" ++ ",".intercalate items ++ "]"
  | .tuple xs => do
      let items ← writeItems sorted xs
      return "[" ++ ",".intercalate items ++ "]"
  | .mapping ms => do
      let written ← arrange sorted (writeMembers sorted ms)
      let members ← written.mapM Prod.snd
      return "\x7b" ++ ",".intercalate members ++ "\x7d"
  | .object as => .error (.value (kindName (.object as)))

def writeItems (sorted : Bool) : List Value → Except Unwritable (List String)
  | [] => .ok []
  | x :: xs => do
      let item ← write sorted x
      let items ← writeItems sorted xs
      return item :: items

/-- Every member with its written form, or why it has none. -/
def writeMembers (sorted : Bool) :
    List (Value × Value) → List (Value × Except Unwritable String)
  | [] => []
  | (k, v) :: ms =>
      let member := do
        let key ← keyText k
        let value ← write sorted v
        return quote key ++ ":" ++ value
      (k, member) :: writeMembers sorted ms

end

/-- JSON with the members in their own order. -/
def compact (v : Value) : Except Unwritable String := write false v

/-- JSON with the members sorted by key. -/
def canonical (v : Value) : Except Unwritable String := write true v

end AccessGate.Json
