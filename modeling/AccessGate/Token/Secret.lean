import AccessGate.Error.Token
import AccessGate.Json.Reader
import AccessGate.Key.Line
import AccessGate.Key.Structure

/-!
# Shared secrets

A public key is no secret, and must not be taken for one. So a key that looks like half of a key
pair, or like a document of keys, is refused as a shared secret, in whichever of the usual formats
it is written.

* `AccessGate.Secret.isMarked` – a key or certificate **between markers**;
* `AccessGate.Secret.isDocument` – a **document of keys**;
* `AccessGate.Secret.ofKey` – the **bytes of a shared secret**.
-/

namespace AccessGate.Secret

/-! ### Markers -/

/-- What may stand in a marker. -/
def labels : List String := ["CERTIFICATE", "TRUSTED CERTIFICATE", "PRIVATE KEY", "PUBLIC KEY",
  "ENCRYPTED PRIVATE KEY", "OPENSSH PRIVATE KEY", "DSA PRIVATE KEY", "RSA PRIVATE KEY",
  "RSA PUBLIC KEY", "EC PRIVATE KEY", "DH PARAMETERS", "NEW CERTIFICATE REQUEST",
  "CERTIFICATE REQUEST", "SSH2 PUBLIC KEY", "SSH2 ENCRYPTED PRIVATE KEY", "X509 CRL"]

/-- The bytes after `front`, if they start with it. -/
def dropFront? : List UInt8 → List UInt8 → Option (List UInt8)
  | [], bs => some bs
  | _ :: _, [] => none
  | a :: front, b :: bs => if a = b then dropFront? front bs else none

/-- The bytes after a hyphen or a blank. -/
def dropStroke? : List UInt8 → Option (List UInt8)
  | b :: bs => if b = 45 ∨ b = 32 then some bs else none
  | [] => none

/-- The bytes after a marker such as `-----BEGIN PUBLIC KEY-----`. -/
def dropMarker? (word label : String) (bs : List UInt8) : Option (List UInt8) := do
  let strokes := Text.utf8 "----"
  let afterStrokes ← dropFront? strokes bs
  let inner ← dropStroke? afterStrokes
  let afterLabel ← dropFront? (Text.utf8 (word ++ " " ++ label)) inner
  let closing ← dropStroke? afterLabel
  dropFront? strokes closing

/-- Does the closing marker of a label come later, after at least one byte and before another
opening marker of the same label? -/
def closes (label : String) : List UInt8 → Bool
  | [] => false
  | b :: bs =>
      (dropMarker? "BEGIN" label (b :: bs)).isNone &&
        ((dropMarker? "END" label bs).isSome || closes label bs)

/-- Does an opening marker of a label start here that is closed later? -/
def opens (label : String) (bs : List UInt8) : Bool :=
  (dropMarker? "BEGIN" label bs).any (closes label)

/-- Is there a key or certificate between markers anywhere? -/
def isMarked : List UInt8 → Bool
  | [] => false
  | b :: bs => labels.any (opens · (b :: bs)) || isMarked bs

/-! ### Documents -/

mutual

/-- Has a value, or anything in it, a member with the given name? -/
def mentions (name : String) : Value → Bool
  | .mapping ms => (Members.find? ms (.text name)).isSome || anyMemberMentions name ms
  | .list xs => anyMentions name xs
  | _ => false

def anyMentions (name : String) : List Value → Bool
  | [] => false
  | x :: xs => mentions name x || anyMentions name xs

def anyMemberMentions (name : String) : List (Value × Value) → Bool
  | [] => false
  | (_, v) :: ms => mentions name v || anyMemberMentions name ms

end

/-- Is the key a document of keys, which tells of what kind they are? -/
def isDocument (bs : List UInt8) : Bool := (Json.ofBytes? bs).any (mentions "kty")

/-! ### Secrets -/

/-- Does the key look like half of a key pair? -/
def isAsymmetric (bs : List UInt8) : Bool :=
  isMarked bs || KeyLine.isPublic bs || Structure.isPublicKey bs

/-- The bytes of a key. -/
def bytes? : Value → Option (List UInt8)
  | .text s => some (Text.utf8 s)
  | .bytes bs => some bs
  | _ => none

/-- What keeps bytes from being a shared secret. -/
def flaw? (bs : List UInt8) : Option SecretError :=
  if bs.isEmpty then some .empty
  else if isAsymmetric bs then some .asymmetric
  else if isDocument bs then some .document
  else none

/-- The bytes of a shared secret. -/
def ofKey (key : Value) : Except SecretError (List UInt8) :=
  match bytes? key with
  | some bs =>
      match flaw? bs with
      | some e => .error e
      | none => .ok bs
  | none => .error .notSecret

end AccessGate.Secret
