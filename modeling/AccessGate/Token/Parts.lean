import AccessGate.Error.Token
import AccessGate.Json.Reader
import AccessGate.Text.Split
import AccessGate.Token.Base64

/-!
# The parts of a token

* `AccessGate.Token.Parts` – a token **taken apart**: its header, the bytes of its claims and of its
  signature, and the bytes that were signed;
* `AccessGate.Token.Parts.ofToken` – the parts **of a token**. The three segments are told apart by
  the first and the last point;
* `AccessGate.Token.Parts.check` – what a header may not say **whoever signed it**;
* `AccessGate.Token.Parts.claims` – the **claims**, which nothing vouches for yet.
-/

namespace AccessGate.Token

/-- A token taken apart. -/
structure Parts where
  header : Members
  payload : List UInt8
  signature : List UInt8
  signed : List UInt8
deriving DecidableEq, Repr

namespace Parts

/-! ### Segments -/

/-- The bytes of a segment. -/
def bytesOf (segment : Segment) (cs : List Char) : Except TokenError (List UInt8) :=
  match Base64.decode? cs with
  | some bytes => .ok bytes
  | none => .error (.padding segment)

/-- The members of the object that the bytes of a segment hold. -/
def objectOf (segment : Segment) (bytes : List UInt8) : Except TokenError Members :=
  match Json.ofBytes? bytes with
  | some (.mapping ms) => .ok ms
  | some _ => .error (.notObject segment)
  | none => .error (.notJson segment)

/-- The three segments of the characters of a token. -/
def segments? (cs : List Char) : Option (List Char × List Char × List Char) :=
  match Text.piecesOf '.' cs with
  | header :: payload :: rest =>
      rest.getLast?.map fun signature =>
        (header, ['.'].intercalate (payload :: rest.dropLast), signature)
  | _ => none

/-- The only extension that a token may call critical: its claims are elsewhere. -/
def detachment : String := "b64"

/-- Does the header say that the claims are elsewhere? -/
def isDetached (header : Members) : Bool :=
  header.find? (.text detachment) == some (.bool false)

/-- The parts of the characters of a token. One whose claims are elsewhere must not bring any. -/
def ofChars (cs : List Char) : Except TokenError Parts :=
  match segments? cs with
  | none => .error .tooFewSegments
  | some (front, body, back) => do
      let headerBytes ← bytesOf .header front
      let header ← objectOf .header headerBytes
      if isDetached header && !body.isEmpty then throw .payloadPresent
      let payload ← bytesOf .payload body
      let signature ← bytesOf .signature back
      return ⟨header, payload, signature, Text.utf8 (String.ofList (front ++ '.' :: body))⟩

/-- The parts of a token, which is a text or a byte string. -/
def ofToken : Value → Except TokenError Parts
  | .text s => ofChars s.toList
  | .bytes bs => ofChars (bs.map fun b => Char.ofNat b.toNat)
  | _ => .error .notText

/-! ### Headers -/

/-- An extension that a token calls critical has to be known, and the header has to make use of
it. -/
def checkExtension (header : Members) : Value → Except ExtensionError Unit
  | .text name =>
      if name ≠ detachment then .error (.unsupported name)
      else if (header.find? (.text name)).isNone then .error (.absent name)
      else .ok ()
  | _ => .error .notText

/-- The extensions that a token calls critical are a list with something in it. -/
def checkExtensions (header : Members) : Except ExtensionError Unit :=
  match header.find? (.text "crit") with
  | none => .ok ()
  | some (.list []) => .error .notListed
  | some (.list xs) => xs.forM (checkExtension header)
  | some _ => .error .notListed

/-- The key id of a token is a text, if it has one. -/
def checkKid (header : Members) : Except TokenError Unit :=
  match header.find? (.text "kid") with
  | none => .ok ()
  | some (.text _) => .ok ()
  | some _ => .error .kidNotText

/-- A header that says where the claims are calls this critical. -/
def checkDetachment (header : Members) : Except ExtensionError Unit :=
  if isDetached header && (header.find? (.text "crit")).isNone then .error .detachmentNotListed
  else .ok ()

/-- What a header has to be like whoever signed it. -/
def check (p : Parts) : Except TokenError Unit := do
  checkKid p.header
  (checkExtensions p.header).mapError .extension
  (checkDetachment p.header).mapError .extension

/-- A token has to bring its claims along. -/
def checkAttached (p : Parts) : Except TokenError Unit :=
  if isDetached p.header then .error .detachedPayload else .ok ()

/-- The key id, nothing if there is none. -/
def kid (p : Parts) : Value := p.header.get "kid"

/-! ### Claims -/

/-- The claims. -/
def claims (p : Parts) : Except TokenError Members := objectOf .payload p.payload

end Parts

end AccessGate.Token
