import AccessGate.Error.Fault
import AccessGate.Key.Kind
import AccessGate.Key.Structure
import AccessGate.Token.Base64

/-!
# Key sets

A document of verification keys. A key is a shared secret or half of a pair. An entry that is no key
is passed over, with two exceptions, which are faults: an entry for a secret without a member for
it, and an entry for the algorithm that signs nothing.

* `AccessGate.Key` – a **key**: whatever was given as one, or the half of a pair in a document;
* `AccessGate.VerificationKey` – a **key of a document** with its id and the use it is meant for;
* `AccessGate.VerificationKey.ofData` – the key **in an entry** of a document, if there is one;
* `AccessGate.KeySet.ofMembers` – the **keys of a document**, at least one.
-/

namespace AccessGate

/-- A key to verify tokens with. -/
inductive Key where
  | given (v : Value)
  | half (h : KeyHalf)
deriving DecidableEq, Repr

/-- A key of a document. Id and use are nothing where the document does not give them. -/
structure VerificationKey where
  kid : Value
  use : Value
  key : Key
deriving DecidableEq, Repr

namespace VerificationKey

/-! ### Kinds -/

/-- The kind of the keys of the algorithm with a name. -/
def kindOfAlgorithm? (name : String) : Option KeyKind :=
  if Algorithm.foreignNames.contains name then some (.pair .curve)
  else (Algorithm.ofName? name).map Algorithm.keyKind

/-- The kind that an entry names. Pairs of two families have to name their curve as well. -/
def kindOfName? (name : String) (curve : Value) : Option KeyKind :=
  match name, curve with
  | "oct", _ => some .secret
  | "RSA", _ => some (.pair .rsa)
  | "EC", .text s => if (Curve.ofName? s).isSome then some (.pair .curve) else none
  | "OKP", .text s => if s = "Ed25519" then some (.pair .edwards) else none
  | _, _ => none

/-- The kind of the key in an entry. The algorithm decides, where there is one, and the name of the
kind has to agree. -/
def kind? (ms : Members) : Option KeyKind :=
  match ms.get "kty", (ms.get "alg").isTruthy, ms.get "alg" with
  | .text name, true, .text algorithm =>
      (kindOfAlgorithm? algorithm).filter fun kind => kind.name == name
  | .text name, false, _ => kindOfName? name (ms.get "crv")
  | _, _, _ => none

/-! ### Contents -/

/-- The bytes under a name of an entry. -/
def bytesUnder? (ms : Members) (name : String) : Option (List UInt8) :=
  match ms.find? (.text name) with
  | some (.text s) => Base64.decodeLoose? s
  | _ => none

/-- The number under a name of an entry. -/
def numberUnder? (ms : Members) (name : String) : Option Nat :=
  (bytesUnder? ms name).map BigEndian.value

/-- Has an entry a member with a name? -/
def has (ms : Members) (name : String) : Bool := (ms.find? (.text name)).isSome

/-- The secret of an entry, which is not empty. -/
def secretIn (ms : Members) : Except Fault (Option Key) :=
  if has ms "k" then
    match bytesUnder? ms "k" with
    | some (b :: bs) => .ok (some (.given (.bytes (b :: bs))))
    | _ => .ok none
  else .error .noSuchMember

/-- The names of the factors and what goes with them. -/
def factorNames : List String := ["p", "q", "dp", "dq", "qi"]

/-- The factors in an entry. -/
def factorsIn? (ms : Members) : Option Modulus.Factors := do
  let p ← numberUnder? ms "p"
  let q ← numberUnder? ms "q"
  let forP ← numberUnder? ms "dp"
  let forQ ← numberUnder? ms "dq"
  let inverse ← numberUnder? ms "qi"
  return ⟨p, q, forP, forQ, inverse⟩

/-- Is the private exponent of an entry that of a modulus of two factors? The factors are there with
all that goes with them, or not at all. -/
def isUndone (ms : Members) (m : Modulus) : Bool :=
  !has ms "oth" &&
    (numberUnder? ms "d").any fun d =>
      if factorNames.any (has ms) then (factorsIn? ms).any (m.isUndoneBy d)
      else m.isUndoneAlone d

/-- The modulus and exponent of an entry, and the private exponent if there is one. -/
def modulusIn? (ms : Members) : Option KeyHalf := do
  let n ← numberUnder? ms "n"
  let e ← numberUnder? ms "e"
  let m : Modulus := ⟨n, e⟩
  if has ms "d" then if isUndone ms m then some (.modulus true) else none
  else if m.isSound then some (.modulus false)
  else none

/-- Is the private half of an entry the one of its point? It is written as long as the point's
numbers. -/
def isOfPoint (ms : Members) (c : Curve) (xs ys : List UInt8) : Bool :=
  (bytesUnder? ms "d").any fun ds =>
    ds.length == c.width &&
      c.isMultiple (BigEndian.value ds) (BigEndian.value xs, BigEndian.value ys)

/-- The point of an entry on the curve that it names. -/
def pointIn? (ms : Members) : Option KeyHalf := do
  let c ← match ms.get "crv" with
    | .text name => Curve.ofName? name
    | _ => none
  let xs ← bytesUnder? ms "x"
  let ys ← bytesUnder? ms "y"
  if c.holdsBytes xs ys && (!has ms "d" || isOfPoint ms c xs ys) then some (.point c) else none

/-- The number of bytes of the keys on a curve that is known by its name alone. -/
def plainLength? : Value → Option Nat
  | .text "Ed25519" => some 32
  | .text "Ed448" => some 57
  | _ => none

/-- The key of an entry whose bytes are as many as its curve takes. Where the private half is there
too, that one is looked at. -/
def plainIn? (ms : Members) : Option KeyHalf := do
  let length ← plainLength? (ms.get "crv")
  let xs ← bytesUnder? ms "x"
  let bytes ← if has ms "d" then bytesUnder? ms "d" else some xs
  if bytes.length = length then some .plain else none

/-- The half of a pair in an entry. -/
def halfIn? (ms : Members) : KeyFamily → Option KeyHalf
  | .rsa => modulusIn? ms
  | .curve => pointIn? ms
  | .edwards => plainIn? ms

/-- The key of a kind in an entry, if it is there. -/
def keyIn (ms : Members) : KeyKind → Except Fault (Option Key)
  | .secret => secretIn ms
  | .pair family => .ok ((halfIn? ms family).map .half)

/-- Is an entry one for the algorithm that signs nothing, which has no keys? -/
def isForNothing (ms : Members) : Bool := (ms.get "kty").isTruthy && ms.get "alg" == .text "none"

/-- The key in an entry of a document. -/
def ofData : Value → Except Fault (Option VerificationKey)
  | .mapping ms =>
      if isForNothing ms then .error .undefinedOperation
      else
        match kind? ms with
        | some kind => do
            let key ← keyIn ms kind
            return key.map fun k => ⟨Members.get ms "kid", Members.get ms "use", k⟩
        | none => .ok none
  | _ => .ok none

end VerificationKey

namespace KeySet

/-- The keys of the members of a document. What is wrong with the document as a whole is reported in
the caller's way. -/
def ofMembers (report : KeySetError → Fault) (ms : Members) :
    Except Fault (List VerificationKey) :=
  match ms.get "keys" with
  | .list [] => .error (report .noKeys)
  | .list entries => do
      match ← entries.filterMapM VerificationKey.ofData with
      | [] => throw (report .noUsableKeys)
      | usable => return usable
  | v => .error (report (if v.isTruthy then .keysNotList else .noKeys))

end KeySet

end AccessGate
