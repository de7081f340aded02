import AccessGate.Digest.Hmac
import AccessGate.Error.Fault

/-!
# Signature algorithms

* `AccessGate.Algorithm` – the thirteen **algorithms** that tokens may be signed with. Only those
  with a shared secret can be carried out here;
* `AccessGate.Algorithm.lookup` – the algorithm **with a configured name**. Names are exact: case
  and blanks count.
-/

namespace AccessGate

/-- The sizes of the digests in the names of algorithms. -/
inductive DigestSize where
  | bits256
  | bits384
  | bits512
deriving DecidableEq, Repr

def DigestSize.text : DigestSize → String
  | bits256 => "256"
  | bits384 => "384"
  | bits512 => "512"

def DigestSize.all : List DigestSize := [bits256, bits384, bits512]

/-- The digest of a size. -/
def DigestSize.function : DigestSize → Digest.Function
  | bits256 => .sha256
  | bits384 => .sha384
  | bits512 => .sha512

/-- A signature algorithm: a keyed digest with a shared secret, or one with a key pair. -/
inductive Algorithm where
  | secret (size : DigestSize)
  | rsa (size : DigestSize)
  | rsaPadded (size : DigestSize)
  | curve (size : DigestSize)
  | edwards
deriving DecidableEq, Repr

namespace Algorithm

/-- The name of an algorithm, as it stands in a token's header. -/
def name : Algorithm → String
  | secret size => "HS" ++ size.text
  | rsa size => "RS" ++ size.text
  | rsaPadded size => "PS" ++ size.text
  | curve size => "ES" ++ size.text
  | edwards => "EdDSA"

/-- All algorithms, in the order of their names. -/
def all : List Algorithm :=
  DigestSize.all.map curve ++ [edwards] ++ DigestSize.all.map secret ++
    DigestSize.all.map rsaPadded ++ DigestSize.all.map rsa

/-- Do both sides hold the same key? -/
def isSymmetric : Algorithm → Bool
  | secret _ => true
  | _ => false

/-- The algorithm with the given name. -/
def ofName? (s : String) : Option Algorithm := all.find? (·.name == s)

/-- Names of algorithms with points of a curve that tokens of this library are never signed with. -/
def foreignNames : List String := ["ES256K", "ES521"]

/-- The algorithm that a setting names. -/
def lookup (v : Value) : Except Fault Algorithm :=
  match v with
  | .text s =>
      match ofName? s with
      | some a => .ok a
      | none => .error (SetupError.unknownAlgorithm v).fault
  | _ => .error (SetupError.unknownAlgorithm v).fault

end Algorithm

end AccessGate
