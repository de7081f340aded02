import AccessGate.Text.Split

/-!
# Paths of files

* `AccessGate.Path` – a **path**: where it starts, and its parts. Repeated slashes, single points
  and a slash at the end say nothing and are gone; two points stay, as they may lead anywhere;
* `AccessGate.Path.text` – the **path as text**, a single point if it has no parts;
* `AccessGate.Path.suffix` – the **suffix** of the last part, its point included. A point at either
  end of the part starts no suffix.
-/

namespace AccessGate

/-- A path. Its root is empty for a path from the working directory. -/
structure Path where
  root : String
  parts : List String
deriving DecidableEq, Repr

namespace Path

/-- The root of a path with the given characters. Exactly two slashes are a root of their own. -/
def rootOf (cs : List Char) : String :=
  match (cs.takeWhile (· == '/')).length with
  | 0 => ""
  | 2 => "//"
  | _ => "/"

/-- The path that a text stands for. -/
def ofText (s : String) : Path :=
  ⟨rootOf s.toList, (Text.pieces '/' s).filter fun part => part ≠ "" && part ≠ "."⟩

/-- The path as text. -/
def text (p : Path) : String :=
  if p.root.isEmpty && p.parts.isEmpty then "." else p.root ++ "/".intercalate p.parts

/-- The last part. -/
def name (p : Path) : String := p.parts.getLastD ""

/-- The suffix of a part. -/
def suffixOf (part : List Char) : List Char :=
  match (Text.piecesOf '.' part).reverse with
  | last :: _ :: _ =>
      if last.isEmpty ∨ part.length = last.length + 1 then [] else '.' :: last
  | _ => []

/-- The suffix of the last part. -/
def suffix (p : Path) : String := String.ofList (suffixOf p.name.toList)

end Path

end AccessGate
