/-!
# Messages as blocks of words

What the digests of this library share: a message is padded to whole blocks, the blocks are cut into
words, and the words of the last state are written out again.

* `AccessGate.Digest.padded` – the **padded message**: a single one bit, zeros, and the length of
  the message in bits;
* `AccessGate.Digest.blocks` – its **blocks of sixteen words**, most significant byte first;
* `AccessGate.Digest.hex` – a digest **in base sixteen**.
-/

namespace AccessGate.Digest

/-- The last `count` bytes of a number, the most significant first. -/
def bigEndian : (count : Nat) → Nat → List UInt8
  | 0, _ => []
  | count + 1, n => bigEndian count (n / 256) ++ [UInt8.ofNat (n % 256)]

/-- The number that bytes stand for, the most significant first. -/
def ofBigEndian (bs : List UInt8) : Nat := bs.foldl (fun n b => 256 * n + b.toNat) 0

/-- The message padded to whole blocks of `block` bytes, the last `lengthBytes` of them being the
length of the message. -/
def padded (block lengthBytes : Nat) (message : List UInt8) : List UInt8 :=
  let used := (message.length + 1 + lengthBytes) % block
  message ++ 0x80 :: List.replicate ((block - used) % block) 0 ++
    bigEndian lengthBytes (8 * message.length)

/-- The pieces of `size` items, `pieces` of them. -/
def cut {α : Type} (size : Nat) : (pieces : Nat) → List α → List (List α)
  | 0, _ => []
  | pieces + 1, xs => xs.take size :: cut size pieces (xs.drop size)

/-- The words of a block, `w` bits each. -/
def words (w : Nat) (block : List UInt8) : List (BitVec w) :=
  (cut (w / 8) 16 block).map fun bs => BitVec.ofNat w (ofBigEndian bs)

/-- The padded message as blocks of sixteen words of `w` bits. Its length takes two words. -/
def blocks (w : Nat) (message : List UInt8) : List (List (BitVec w)) :=
  let size := 2 * w
  let all := padded size (w / 4) message
  (cut size (all.length / size) all).map (words w)

/-- The bytes of the words of a state. -/
def stateBytes {w : Nat} (state : List (BitVec w)) : List UInt8 :=
  state.flatMap fun word => bigEndian (w / 8) word.toNat

/-- One of the sixteen digits, in small letters. -/
def hexDigit (n : Nat) : Char := "0123456789abcdef".toList.getD n '0'

/-- Bytes in base sixteen, two digits each. -/
def hex (bs : List UInt8) : String :=
  String.ofList (bs.flatMap fun b => [hexDigit (b.toNat / 16), hexDigit (b.toNat % 16)])

end AccessGate.Digest
