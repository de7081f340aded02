import AccessGate.Text.Blank
import AccessGate.Text.Split
import AccessGate.Value.Display
import AccessGate.Error.Fault

/-!
# Flags and lists in configuration

* `AccessGate.Setting.flag?` – a **truth value**, written as one or as one of twelve texts;
* `AccessGate.Setting.itemsOfText` – the **items between commas**, without the blanks around them
  and without empty ones;
* `AccessGate.Setting.items` – a **list of texts**, written as such a text or as anything that can
  be gone through;
* `AccessGate.Setting.members` – the **members of a section**, which may be missing or empty.
-/

namespace AccessGate.Setting

/-- The texts that say yes. -/
def yes : List String := ["1", "t", "T", "TRUE", "true", "True"]

/-- The texts that say no. -/
def no : List String := ["0", "f", "F", "FALSE", "false", "False"]

/-- The truth value that a text spells. -/
def flagOfText? (s : String) : Option Bool :=
  if yes.contains s then some true else if no.contains s then some false else none

/-- The truth value that a value gives. -/
def flag? : Value → Option Bool
  | .bool b => some b
  | .text s => flagOfText? s
  | _ => none

/-- The items between commas. -/
def itemsOfText (s : String) : List String :=
  ((Text.pieces ',' s).map Text.strip).filter (!·.isEmpty)

/-- The texts that a value lists. -/
def items : Value → Except Fault (List String)
  | .null => .ok []
  | .text s => .ok (itemsOfText s)
  | v =>
      match v.elements? with
      | some xs => xs.mapM Value.toText
      | none => .error .wrongKind

/-- The members of a section of the configuration: none if it is missing or empty. -/
def members (data : Value) : Except Fault Members :=
  match data.orElse (.mapping []) with
  | .mapping ms => .ok ms
  | other => .error (other.missing "get")

end AccessGate.Setting
