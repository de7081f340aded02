import AccessGate.Error.Encoding
import AccessGate.Token.Algorithm
import AccessGate.Token.Base64
import AccessGate.Token.Secret

/-!
# Signed tokens

A token is a header, claims and a signature, each in base sixty-four, joined by points. Header and
claims are JSON; the signature is made over the text before the last point.

* `AccessGate.Token.headerOf` – the **header**: the type and the algorithm, with the members of the
  signer's own headers put over them;
* `AccessGate.Token.sign` – **claims as a token**.

The algorithm that the signer's own headers name is the one the token is signed with. A header that
says `b64` is false leaves the claims out of the token, and they are signed as they are; the header
then calls this critical, so that nobody overlooks it.
-/

namespace AccessGate.Token

/-! ### The header -/

/-- The algorithm a token is signed with: one that the signer's own headers name comes first. -/
def effective (a : Algorithm) (headers : Members) : Value :=
  (headers.get "alg").orElse (.text a.name)

/-- Do the signer's own headers leave the claims out of the token? -/
def isDetached (headers : Members) : Bool := headers.find? (.text "b64") == some (.bool false)

/-- The members without the one under a name. -/
def without (ms : Members) (name : String) : Members := ms.filter fun m => !m.1.equals (.text name)

/-- The extensions that a header calls critical, with that of a token without its claims. -/
def withDetachment (header : Members) : Except EncodingError Members :=
  match (header.find? (.text "crit")).getD (.list []) with
  | .list names =>
      let all := if names.any (·.equals (.text "b64")) then names else names ++ [.text "b64"]
      .ok ((header.put (.text "crit") (.list all)).put (.text "b64") (.bool false))
  | _ => .error .extensionsNotListed

/-- The header of a token. -/
def headerOf (a : Algorithm) (headers : Members) : Except EncodingError Members :=
  let base : Members := [(.text "typ", .text "JWT"), (.text "alg", effective a headers)]
  let given := base.update headers
  let typed := if (given.get "typ").isTruthy then given else without given "typ"
  if isDetached headers then withDetachment typed else .ok (without typed "b64")

/-! ### The signature -/

/-- The algorithm that the value of a header names, nothing for one that tokens are never signed
with. -/
def algorithmOf (v : Value) : Except EncodingError (Option Algorithm) :=
  match v.unkeyed?, v with
  | some kind, _ => .error (.algorithmNotName kind)
  | none, .text s =>
      if s = "none" then .error .keyWithoutAlgorithm
      else if Algorithm.foreignNames.contains s then .ok none
      else
        match Algorithm.ofName? s with
        | some a => .ok (some a)
        | none => .error .algorithmUnknown
  | none, _ => .error .algorithmUnknown

/-- Why a key is not the half of a pair that can sign. -/
def pairError (family : KeyFamily) (key : Value) : EncodingError :=
  match ((Secret.bytes? key).filter (KeyLine.isReadFor family)).bind KeyLine.unknownType? with
  | some type => .unknownKeyType type
  | none => .uselessKey

/-- The signature of a message. Only shared secrets can sign here. -/
def signatureOf (a : Option Algorithm) (key : Value) (message : List UInt8) :
    Except EncodingError (List UInt8) :=
  match a, a.map Algorithm.keyKind with
  | some (.secret size), _ => do
      let secret ← (Secret.ofKey key).mapError .key
      return size.function.keyed secret message
  | _, some (.pair family) => .error (pairError family key)
  | _, _ => .error (pairError .curve key)

/-! ### Tokens -/

/-- Text and bytes in base sixty-four. -/
def segment (bytes : List UInt8) : String := String.ofList (Base64.encode bytes)

/-- The issuer of claims has to be a text, if there is one. -/
def checkIssuer (claims : Members) : Except EncodingError Unit :=
  match claims.find? (.text "iss") with
  | some (.text _) => .ok ()
  | some _ => .error .issuerNotText
  | none => .ok ()

/-- The key id of headers has to be a text, if there is one. -/
def checkKid (headers : Members) : Except EncodingError Unit :=
  match headers.find? (.text "kid") with
  | some (.text _) => .ok ()
  | some _ => .error .kidNotText
  | none => .ok ()

/-- The members of claims. -/
def claimsOf (claims : Value) : Except EncodingError Members :=
  (Members.ofValue claims).mapError .notClaims

/-- Claims as a token, with a header that has all members of `headers`. -/
def sign (a : Algorithm) (key : Value) (headers : Members) (claims : Value) :
    Except EncodingError String := do
  let members ← claimsOf claims
  checkIssuer members
  let payload ← (Json.compact (.mapping members)).mapError .unwritable
  checkKid headers
  let all ← headerOf a headers
  let header ← (Json.canonical (.mapping all)).mapError .unwritable
  let front := segment (Text.utf8 header)
  let body := if isDetached headers then payload else segment (Text.utf8 payload)
  let used ← algorithmOf (effective a headers)
  let signature ← signatureOf used key (Text.utf8 (front ++ "." ++ body))
  return front ++ "." ++ (if isDetached headers then "" else body) ++ "." ++ segment signature

end AccessGate.Token
