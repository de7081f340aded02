import AccessGate.Request.Header
import AccessGate.Value.Texts

/-!
# Cookies of a request

A request has its cookies as a mapping, as a raw `Cookie` header, or both; the header is asked only
for a cookie that the mapping does not have.

* `AccessGate.Cookie.Piece` – a **piece of the raw header**: a name with or without a value;
* `AccessGate.Cookie.pieces` – the **pieces from the left**, up to the first place where there is
  none;
* `AccessGate.Cookie.jar?` – the **cookies that pieces make**. Pieces may also be attributes of the
  cookie before them, and one piece that is out of place spoils the header as a whole;
* `AccessGate.Cookie.find` – the **cookie of a request**.

All character classes of the raw header are ASCII.
-/

namespace AccessGate.Cookie

/-! ### Characters -/

/-- Is the character a space between pieces? -/
def isSpace (c : Char) : Bool := c == ' ' || (decide (9 ≤ c.toNat) && decide (c.toNat ≤ 13))

/-- Is the character a letter, a digit or an underscore? -/
def isWord (c : Char) : Bool := c.isAlphanum || c == '_'

/-- Can the character stand in the name of a piece? -/
def isNameChar (c : Char) : Bool :=
  isWord c || "!#%&'~`><@,:/$*+-.^|)(?\x7d\x7b=".toList.contains c

/-- Can the character stand in a value without quotes? -/
def isValueChar (c : Char) : Bool := isNameChar c || c == '[' || c == ']'

/-- Can the character stand in the name of a cookie? -/
def isLegal (c : Char) : Bool := c.isAlphanum || "!#$%&'*+-.^_`|~:".toList.contains c

/-! ### Values -/

/-- The value of a digit in base eight. -/
def octal? (c : Char) : Option Nat :=
  if '0' ≤ c ∧ c ≤ '7' then some (c.toNat - 48) else none

/-- The character of three digits in base eight, of which the first is at most three. -/
def octalChar? (a b c : Char) : Option Char := do
  let x ← octal? a
  let y ← octal? b
  let z ← octal? c
  if x ≤ 3 then some (Char.ofNat ((x * 8 + y) * 8 + z)) else none

/-- A value in quotes after the opening one, and what follows the closing one. A backslash before
three digits is a character by its number, and before any other character but the end of a line it
stands for that character. -/
def quoted : List Char → Option (List Char × List Char)
  | [] => none
  | '"' :: rest => some ([], rest)
  | '\\' :: a :: b :: c :: rest =>
      match octalChar? a b c with
      | some x => (quoted rest).map fun (v, after) => (x :: v, after)
      | none =>
          if a = '\n' then none
          else (quoted (b :: c :: rest)).map fun (v, after) => (a :: v, after)
  | '\\' :: a :: rest =>
      if a = '\n' then none else (quoted rest).map fun (v, after) => (a :: v, after)
  | c :: rest =>
      if c = '\\' then none else (quoted rest).map fun (v, after) => (c :: v, after)

/-- The classes of the characters of a date with `n` characters between its day and its time. -/
def dateShape (n : Nat) : List (Char → Bool) :=
  List.replicate 3 isWord ++ [(· == ','), isSpace] ++
    List.replicate n (fun c => isWord c || isSpace c || c == '-') ++
    [isSpace] ++ List.replicate 8 (fun c => c.isDigit || c == ':') ++
    [isSpace, (· == 'G'), (· == 'M'), (· == 'T')]

/-- The characters of the given classes at the front, and what follows them. -/
def shaped : List (Char → Bool) → List Char → Option (List Char × List Char)
  | [], cs => some ([], cs)
  | _ :: _, [] => none
  | test :: tests, c :: cs =>
      if test c then (shaped tests cs).map fun (v, after) => (c :: v, after) else none

/-- The values that may stand at the front, in the order in which they are tried: one in quotes, a
date, and the longest run of the characters of a value. -/
def candidates (cs : List Char) : List (List Char × List Char) :=
  (match cs with
    | '"' :: rest => (quoted rest).toList
    | _ => []) ++
  [11, 10, 9].filterMap (fun n => shaped (dateShape n) cs) ++
  [(cs.takeWhile isValueChar, cs.dropWhile isValueChar)]

/-! ### Pieces -/

/-- A piece of the raw header. -/
structure Piece where
  name : String
  value : Option String
deriving DecidableEq, Repr

/-- What follows the end of a piece: spaces, a semicolon, or both, or nothing more at all. -/
def ending (cs : List Char) : Option (List Char) :=
  match cs.dropWhile isSpace with
  | [] => some []
  | ';' :: rest => some rest
  | rest => if (cs.takeWhile isSpace).isEmpty then none else some rest

/-- The first candidate that ends a piece. -/
def value (cs : List Char) : Option (List Char × List Char) :=
  (candidates cs).findSome? fun (v, after) => (ending after).map fun rest => (v, rest)

/-- The value after a name: an equals sign with spaces around it, and the value. Where no value fits
the spaces themselves end the piece, and its value is empty. -/
def assigned (cs : List Char) : Option (List Char × List Char) :=
  match cs.dropWhile isSpace with
  | '=' :: more =>
      let after := more.dropWhile isSpace
      match value after with
      | some found => some found
      | none => if (more.takeWhile isSpace).isEmpty then none else some ([], after)
  | _ => none

/-- A piece whose name starts with the characters of `reversed`. The shortest name counts that a
value or the end of the piece can follow. -/
def named (reversed : List Char) : List Char → Option (Piece × List Char)
  | [] => none
  | c :: cs =>
      if isNameChar c then
        let name := c :: reversed
        match assigned cs with
        | some (v, rest) => some (⟨String.ofList name.reverse, some (String.ofList v)⟩, rest)
        | none =>
            match ending cs with
            | some rest => some (⟨String.ofList name.reverse, none⟩, rest)
            | none => named name cs
      else none

/-- At most `n` pieces. -/
def piecesUpTo : Nat → List Char → List Piece
  | 0, _ => []
  | n + 1, cs =>
      match named [] (cs.dropWhile isSpace) with
      | some (p, rest) => p :: piecesUpTo n rest
      | none => []

/-- The pieces of a raw header. Each takes at least one character. -/
def pieces (header : String) : List Piece := piecesUpTo header.length header.toList

/-! ### The jar -/

/-- What a piece is once its place is known. -/
inductive Item where
  | cookie (name value : String)
  | attribute (name : String)
deriving DecidableEq, Repr

/-- The names of the attributes of a cookie. -/
def attributes : List String :=
  ["expires", "path", "comment", "domain", "max-age", "secure", "httponly", "version", "samesite"]

/-- The attributes that need no value. -/
def flags : List String := ["secure", "httponly"]

/-- The items of pieces. A name with a dollar sign is an attribute of the cookie before it, and of
nothing before the first cookie. The header is void, and has no items, if an attribute stands before
the first cookie or if a value is missing. -/
def itemsOf (afterCookie : Bool) : List Piece → Option (List Item)
  | [] => some []
  | ⟨name, value⟩ :: rest =>
      match name.toList with
      | '$' :: cs =>
          if afterCookie then
            (itemsOf true rest).map (.attribute (String.ofList cs) :: ·)
          else itemsOf false rest
      | _ =>
          if attributes.contains (Text.lower name) then
            if afterCookie && (value.isSome || flags.contains (Text.lower name)) then
              (itemsOf true rest).map (.attribute name :: ·)
            else none
          else
            match value with
            | some v => (itemsOf true rest).map (.cookie name v :: ·)
            | none => none

/-- Can a text be the name of a cookie? -/
def isName (s : String) : Bool :=
  !attributes.contains (Text.lower s) && !s.isEmpty && s.toList.all isLegal

/-- The cookies with one more item, unless its name is refused. -/
def add (jar : Texts) : Item → Option Texts
  | .attribute name => if attributes.contains (Text.lower name) then some jar else none
  | .cookie name v => if isName name then some (jar.put name v) else none

/-- The cookies of a raw header: none if it is void, and no jar at all if a name is refused. Of
cookies with the same name the last one counts. -/
def jar? (header : String) : Option Texts :=
  match itemsOf false (pieces header) with
  | some items => items.foldlM add []
  | none => some []

/-- The cookies of a raw header that is a mapping already. A value becomes a text before its name is
looked at. -/
def jarOf (jar : Texts) : List (Value × Value) → Except Fault (Option Texts)
  | [] => .ok (some jar)
  | (key, v) :: rest => do
      let shown ← v.toText
      match key with
      | .text name => if isName name then jarOf (jar.put name shown) rest else return none
      | .bytes _ => throw .wrongKind
      | _ => throw .noSuchAttribute

/-! ### Requests -/

/-- The cookies of a `Cookie` header. -/
def jarOfHeader : Value → Except Fault (Option Texts)
  | .text header => .ok (jar? header)
  | .mapping ms => jarOf [] ms
  | other => .error (other.missing "items")

/-- The cookie of a jar under a name of any kind. -/
def look (jar : Texts) (name : Value) : Except Fault Value :=
  if name.isKey then .ok ((Members.find? jar.toMembers name).getD .null) else .error .wrongKind

/-- The cookie in the `Cookie` header, nothing if there is none. -/
def findInHeader (request name : Value) : Except Fault Value := do
  let raw ← Header.find request (.text "Cookie")
  if raw.isTruthy then
    match ← jarOfHeader raw with
    | some jar => look jar name
    | none => return .null
  else return .null

/-- A cookie may be an object that has its value as an attribute. -/
def content : Value → Value
  | .object as => (as.lookup "value").getD (.object as)
  | v => v

/-- The cookie of a request, nothing if there is none. -/
def find (request name : Value) : Except Fault Value :=
  match Request.part? request "cookies" with
  | some cookies =>
      if name.isKey then
        match cookies.find? name with
        | some v => .ok (content v)
        | none => findInHeader request name
      else .error .wrongKind
  | none => findInHeader request name

end AccessGate.Cookie
