import AccessGate.Digest.Sha2

/-!
# Keyed digests

* `AccessGate.Digest.Function` – a **digest with its block size**;
* `AccessGate.Digest.Function.keyed` – the **code of a message under a key** (HMAC): the digest of
  the key and the message, digested once more with the key. A key longer than a block is digested
  first.
-/

namespace AccessGate.Digest

/-- A digest and the size of the blocks it works on, in bytes. -/
structure Function where
  block : Nat
  digest : List UInt8 → List UInt8

def Function.sha256 : Function := ⟨64, Digest.sha256⟩

def Function.sha384 : Function := ⟨128, Digest.sha384⟩

def Function.sha512 : Function := ⟨128, Digest.sha512⟩

/-- The key as one block. -/
def Function.keyBlock (f : Function) (key : List UInt8) : List UInt8 :=
  let short := if f.block < key.length then f.digest key else key
  short ++ List.replicate (f.block - short.length) 0

/-- The code of a message under a key. -/
def Function.keyed (f : Function) (key message : List UInt8) : List UInt8 :=
  let block := f.keyBlock key
  f.digest (block.map (· ^^^ 0x5c) ++ f.digest (block.map (· ^^^ 0x36) ++ message))

end AccessGate.Digest
