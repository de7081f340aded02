import AccessGate.Error.Fault
import AccessGate.Value.Texts

/-!
# Variables in configuration

A text may refer to a variable as `${name}`. The name has at least one character and none that is a
closing brace. A reference to a variable that is set gives way to its value; one to a variable that
is not set stays as it is, and so does everything else. A value that was put in is not read again.

* `AccessGate.Expansion.text` – a **text** with its references replaced, in one pass from left to
  right;
* `AccessGate.Expansion.value` – a **value** with the same done to every text in its lists and under
  its keys. Keys stay, and so does what is inside a tuple;
* `AccessGate.Expansion.names` – the **names that a value refers to**;
* `AccessGate.Expansion.given` – the same with variables that are **values of any kind**. Only those
  that are referred to have to be texts.
-/

namespace AccessGate

namespace Expansion

/-- Where a pass stands: in plain text, after a dollar sign, or in a name, whose characters so far
are kept in reverse. -/
inductive Place where
  | plain
  | dollar
  | name (reversed : List Char)
deriving DecidableEq, Repr

/-- What a reference to a name gives way to: the value of the variable, or the reference itself. -/
def replacement (vars : Texts) (name : List Char) : List Char :=
  match vars.lookup (String.ofList name) with
  | some v => v.toList
  | none => '$' :: '\x7b' :: name ++ ['\x7d']

/-- The pass over the characters of a text. -/
def pass (vars : Texts) : Place → List Char → List Char
  | .plain, [] => []
  | .dollar, [] => ['$']
  | .name reversed, [] => '$' :: '\x7b' :: reversed.reverse
  | .plain, c :: rest =>
      if c = '$' then pass vars .dollar rest else c :: pass vars .plain rest
  | .dollar, c :: rest =>
      if c = '\x7b' then pass vars (.name []) rest
      else if c = '$' then '$' :: pass vars .dollar rest
      else '$' :: c :: pass vars .plain rest
  | .name reversed, c :: rest =>
      if c = '\x7d' then
        (if reversed.isEmpty then ['$', '\x7b', '\x7d'] else replacement vars reversed.reverse) ++
          pass vars .plain rest
      else pass vars (.name (c :: reversed)) rest

/-- A text with its references replaced. -/
def text (vars : Texts) (s : String) : String := String.ofList (pass vars .plain s.toList)

mutual

/-- A value with the references in its texts replaced. -/
def value (vars : Texts) : Value → Value
  | .text s => .text (text vars s)
  | .list xs => .list (items vars xs)
  | .mapping ms => .mapping (members vars ms)
  | v => v

def items (vars : Texts) : List Value → List Value
  | [] => []
  | x :: xs => value vars x :: items vars xs

def members (vars : Texts) : List (Value × Value) → List (Value × Value)
  | [] => []
  | (k, v) :: ms => (k, value vars v) :: members vars ms

end

/-! ### Variables of any kind -/

/-- The names that the characters of a text refer to. -/
def namesIn : Place → List Char → List String
  | _, [] => []
  | .plain, c :: rest => namesIn (if c = '$' then .dollar else .plain) rest
  | .dollar, c :: rest =>
      namesIn (if c = '\x7b' then .name [] else if c = '$' then .dollar else .plain) rest
  | .name reversed, c :: rest =>
      if c = '\x7d' then
        (if reversed.isEmpty then [] else [String.ofList reversed.reverse]) ++ namesIn .plain rest
      else namesIn (.name (c :: reversed)) rest

mutual

/-- The names that a value refers to. -/
def names : Value → List String
  | .text s => namesIn .plain s.toList
  | .list xs => itemNames xs
  | .mapping ms => memberNames ms
  | _ => []

def itemNames : List Value → List String
  | [] => []
  | x :: xs => names x ++ itemNames xs

def memberNames : List (Value × Value) → List String
  | [] => []
  | (_, v) :: ms => names v ++ memberNames ms

end

/-- The text of a variable. One that is nothing is an empty text. -/
def content : Value → Except Fault String
  | .text s => .ok s
  | .null => .ok ""
  | _ => .error .wrongKind

/-- The texts found so far, with that of one more variable if it is set. -/
def addText (vars : Members) (found : Texts) (name : String) : Except Fault Texts :=
  match vars.find? (.text name) with
  | some v => (content v).map (found.put name)
  | none => .ok found

/-- The texts of the variables with the given names. What is no mapping cannot be asked for one. -/
def textsOf (vars : Value) (names : List String) : Except Fault Texts :=
  match vars with
  | .mapping ms => names.foldlM (addText ms) []
  | _ => if names.isEmpty then .ok [] else .error (vars.missing "get")

/-- A value with the references in its texts replaced, where variables may be of any kind. -/
def given (vars v : Value) : Except Fault Value :=
  (textsOf vars (names v)).map fun texts => value texts v

end Expansion

end AccessGate
