import AccessGate.Error.Fault
import AccessGate.File.Tree
import AccessGate.Json.Reader
import AccessGate.Text.LowerCase
import AccessGate.Yaml.Document

/-!
# Configuration files

* `AccessGate.Configuration.load` – the **members of a configuration file**, in the format that its
  suffix names. An empty file holds no members; one that holds anything but a mapping is an error.
-/

namespace AccessGate.Configuration

/-- The formats of configuration files. -/
inductive Format where
  | json
  | yaml
deriving DecidableEq, Repr

/-- The format with a suffix, in lower case. -/
def Format.ofSuffix? (suffix : String) : Option Format :=
  if suffix = ".json" then some .json
  else if suffix = ".yaml" ∨ suffix = ".yml" then some .yaml
  else none

/-- The fault of a text that is no document. -/
def flawFault : Yaml.Flaw → Fault
  | .malformed => .notYaml
  | .noDigits => .badValue
  | .tooManyDigits => .badValue
  | .noCharacter => .badValue
  | .numberTooLarge => .outOfRange

/-- The value of a text in a format. -/
def Format.read : Format → String → Except Fault Value
  | json, s => (Json.read s).mapError Fault.ofUnreadable
  | yaml, s => (Yaml.ofText s).mapError flawFault

/-- The members of the value in a file. -/
def membersOf (path : Path) : Value → Except Fault Members
  | .null => .ok []
  | .mapping ms => .ok ms
  | _ => .error (.setup (.fileRootNotMapping path.text))

/-- The members of the file at a path. -/
def loadPath (files : Tree) (path : Path) : Except Fault Members :=
  match files.find path with
  | .missing => .error (.setup (.fileMissing path.text))
  | .blocked => .error (.setup (.fileMissing path.text))
  | .directory => .error .isDirectory
  | .tooLong => .error .nameTooLong
  | .file bytes => do
      let suffix := Text.lower path.suffix
      match Format.ofSuffix? suffix with
      | none => throw (.setup (.fileFormatUnknown suffix path.text))
      | some format =>
          match Text.ofUtf8? bytes with
          | none => throw .notUtf8
          | some s =>
              let v ← format.read s
              membersOf path v

/-- The members of the file that a value names. -/
def load (files : Tree) : Value → Except Fault Members
  | .text s => loadPath files (.ofText s)
  | _ => .error .wrongKind

end AccessGate.Configuration
