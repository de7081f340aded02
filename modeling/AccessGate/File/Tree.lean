import AccessGate.File.Path

/-!
# Trees of files

* `AccessGate.Tree` – a **file or a directory**;
* `AccessGate.Tree.ofNamed` – the working directory **that holds files with given names**, with the
  directories that the names call for;
* `AccessGate.Tree.find` – what **a path leads to** from the working directory. Outside of it there
  are only directories that lead further out.
-/

namespace AccessGate

/-- A file with its bytes, or a directory with its entries. -/
inductive Tree where
  | file (content : List UInt8)
  | directory (entries : List (String × Tree))
deriving Repr, Inhabited

/-- What a path leads to. A path is blocked where it goes on from a file; a path or a name of its
can be too long to be asked for. -/
inductive Found where
  | file (content : List UInt8)
  | directory
  | missing
  | blocked
  | tooLong
deriving DecidableEq, Repr

namespace Tree

/-- The directory without entries. -/
def empty : Tree := .directory []

/-- The entries with one of them replaced or added. -/
def putEntry (name : String) (t : Tree) : List (String × Tree) → List (String × Tree)
  | [] => [(name, t)]
  | (n, old) :: rest => if n = name then (n, t) :: rest else (n, old) :: putEntry name t rest

/-- The entries of a directory; a file has none. -/
def entries : Tree → List (String × Tree)
  | directory es => es
  | file _ => []

/-- The tree with a file under a row of names, or with a directory if there is no content. -/
def insert (content : Option (List UInt8)) : List String → Tree → Tree
  | [], t =>
      match content with
      | some bytes => .file bytes
      | none => .directory t.entries
  | name :: rest, t =>
      let inner := (t.entries.lookup name).getD empty
      .directory (putEntry name (insert content rest inner) t.entries)

/-- The working directory with the given files, and with a directory for each name without
content. -/
def ofNamed (files : List (String × Option (List UInt8))) : Tree :=
  files.foldl (fun t (name, content) => insert content (Path.ofText name).parts t) empty

/-- The most bytes of the name of an entry. -/
def mostOfName : Nat := 255

/-- The most bytes of a path. -/
def mostOfPath : Nat := 4095

/-- What a name leads to that no directory has. -/
def notFound (name : String) : Found :=
  if mostOfName < name.utf8ByteSize then .tooLong else .missing

/-- What a row of names leads to, from the first of the given trees; the others are its parents. -/
def walk : List Tree → List String → Found
  | [], [] => .directory
  | [], name :: rest => if name = ".." then walk [] rest else notFound name
  | .file bytes :: _, [] => .file bytes
  | .directory _ :: _, [] => .directory
  | .file _ :: _, _ :: _ => .blocked
  | .directory es :: above, name :: rest =>
      if name = ".." then walk above rest
      else
        match es.lookup name with
        | some t => walk (t :: .directory es :: above) rest
        | none => notFound name

/-- What a path leads to from the working directory. -/
def find (t : Tree) (p : Path) : Found :=
  if mostOfPath < p.text.utf8ByteSize then .tooLong
  else walk (if p.root.isEmpty then [t] else []) p.parts

end Tree

end AccessGate
