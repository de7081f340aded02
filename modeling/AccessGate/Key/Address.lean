import AccessGate.Error.Fault
import AccessGate.Text.Blank
import AccessGate.Text.Encoding
import AccessGate.Text.Ranges
import AccessGate.Text.Split

/-!
# Addresses of endpoints

An endpoint is asked over the web, and its address has to be one of the web. The scheme in front
says so; the host behind it is looked at as well, whatever the scheme is.

* `AccessGate.Address.isWeb` – is the **scheme** one of the web?
* `AccessGate.Address.host` – the **host** of an address, with what belongs to it;
* `AccessGate.Address.isHost` – can a text **be a host**? One in brackets is a number of eight
  groups;
* `AccessGate.Address.check` – is a value the **address of an endpoint**?
* `AccessGate.Address.asked` – the address that **is asked**.
-/

namespace AccessGate.Address

/-! ### Schemes -/

/-- The characters of an address that count: none up to the blank at the front, and no ends of
lines or tabs. -/
def plain (s : String) : List Char :=
  (s.toList.dropWhile fun c => decide (c.toNat ≤ 32)).filter fun c =>
    c != '\t' && c != '\r' && c != '\n'

/-- Can the character stand in a scheme? -/
def isSchemeChar (c : Char) : Bool := c.isAlphanum || c == '+' || c == '-' || c == '.'

/-- The scheme in lower case, and what follows its colon. Without a scheme there is nothing in front
of the rest. -/
def splitScheme (cs : List Char) : List Char × List Char :=
  let front := cs.takeWhile (· != ':')
  match front, cs.drop front.length with
  | c :: _, ':' :: rest =>
      if c.isAlpha && front.all isSchemeChar then (front.map Char.toLower, rest) else ([], cs)
  | _, _ => ([], cs)

/-- Is the scheme one of the web? -/
def isWeb (cs : List Char) : Bool :=
  ["http".toList, "https".toList].contains (splitScheme cs).1

/-! ### Numbers of hosts -/

/-- Is a text a number below 256, without needless zeros? -/
def isOctet (cs : List Char) : Bool :=
  !cs.isEmpty && decide (cs.length ≤ 3) && cs.all Char.isDigit &&
    (cs.length == 1 || cs.head? != some '0') &&
    decide (cs.foldl (fun n c => 10 * n + (c.toNat - 48)) 0 ≤ 255)

/-- Is a text four such numbers? -/
def isQuad (cs : List Char) : Bool :=
  let octets := Text.piecesOf '.' cs
  octets.length == 4 && octets.all isOctet

/-- Is a text a group of one to four digits in base sixteen? -/
def isGroup (cs : List Char) : Bool :=
  !cs.isEmpty && decide (cs.length ≤ 4) &&
    cs.all fun c => c.isDigit || ('a' ≤ c && c ≤ 'f') || ('A' ≤ c && c ≤ 'F')

/-- The groups of a number, where four smaller ones at its end take the place of two. -/
def withoutQuad (groups : List (List Char)) : Option (List (List Char)) :=
  match groups.getLast? with
  | some last =>
      if last.contains '.' then
        if isQuad last then some (groups.dropLast ++ [['0'], ['0']]) else none
      else some groups
  | none => none

/-- The groups at one end of a number, of which the outermost is empty if there are none. -/
def endGroups (outer : Option (List Char)) (groups : List (List Char)) :
    Option (List (List Char)) :=
  if outer = some [] then if groups.length = 1 then some [] else none else some groups

/-- Are groups a number of eight? One row of zeros between them may be left out. -/
def areGroups (groups : List (List Char)) : Bool :=
  let inner := (groups.drop 1).dropLast
  match inner.filter List.isEmpty with
  | [] => groups.length == 8 && groups.all isGroup
  | [_] =>
      let place := (inner.takeWhile fun g => !g.isEmpty).length + 1
      match endGroups groups.head? (groups.take place),
          endGroups groups.getLast? (groups.drop (place + 1)) with
      | some front, some back =>
          decide (front.length + back.length ≤ 7) && front.all isGroup && back.all isGroup
      | _, _ => false
  | _ => false

/-- Is a text the number of a host in eight groups? It may name a zone. -/
def isNumber (cs : List Char) : Bool :=
  let front := cs.takeWhile (· != '%')
  let zoned :=
    match cs.drop front.length with
    | [] => true
    | _ :: zone => !zone.isEmpty && !zone.contains '%'
  let groups := Text.piecesOf ':' front
  zoned && !front.contains '/' && decide (3 ≤ groups.length) && decide (groups.length ≤ 9) &&
    (withoutQuad groups).any areGroups

/-- Is a text a number of a kind that is yet to come? Its version stands in front. -/
def isFuture (cs : List Char) : Bool :=
  let digits := (cs.drop 1).takeWhile fun c => isGroup [c]
  match cs.drop (1 + digits.length) with
  | '.' :: _ :: _ => !digits.isEmpty
  | _ => false

/-! ### Hosts -/

/-- The host, with what belongs to it: a user in front of it and a number behind it. -/
def host (cs : List Char) : List Char :=
  match (splitScheme cs).2 with
  | '/' :: '/' :: rest => rest.takeWhile fun c => c != '/' && c != '?' && c != '#'
  | _ => []

/-- Characters that read as more than one, of which one divides an address. -/
def dividers : List (Nat × Nat) := [(0x2047, 0x2049), (0x2100, 0x2101), (0x2105, 0x2106),
  (0x2a74, 0x2a74), (0xfe13, 0xfe13), (0xfe16, 0xfe16), (0xfe55, 0xfe56), (0xfe5f, 0xfe5f),
  (0xfe6b, 0xfe6b), (0xff03, 0xff03), (0xff0f, 0xff0f), (0xff1a, 0xff1a), (0xff1f, 0xff20)]

/-- What is in the brackets of a host. -/
def bracketed (cs : List Char) : List Char :=
  ((cs.dropWhile (· != '[')).drop 1).takeWhile (· != ']')

/-- Is what is in brackets the number of a host? -/
def isBracketed (cs : List Char) : Bool :=
  if cs.head? = some 'v' then isFuture cs else isNumber cs

/-- Can a text be a host? -/
def isHost (cs : List Char) : Bool :=
  (cs.contains '[' == cs.contains ']') && (!cs.contains '[' || isBracketed (bracketed cs)) &&
    cs.all fun c => !Text.within dividers c.toNat

/-! ### Endpoints -/

/-- The address that a text is. -/
def ofText (s : String) : Except Fault String :=
  let cs := plain s
  if !isHost (host cs) then .error .badValue
  else if isWeb cs then .ok s
  else .error .notWebAddress

/-- A byte string is looked at like a text, but is no address of the web. -/
def ofBytes (bs : List UInt8) : Except Fault String :=
  if bs.all (· < 128) then
    if isHost (host (plain (String.ofList (bs.map fun b => Char.ofNat b.toNat)))) then
      .error .notWebAddress
    else .error .badValue
  else .error .notUtf8

/-- The address of an endpoint that a value gives. -/
def check : Value → Except Fault String
  | .text s => ofText s
  | .bytes bs => ofBytes bs
  | v => .error (v.missing "decode")

/-- The address that is asked: without blanks at its ends, and without the mark of a part that is
not named. -/
def asked (address : String) : String :=
  let cs := Text.stripped address.toList
  String.ofList (if cs.getLast? = some '#' then cs.dropLast else cs)

end AccessGate.Address
