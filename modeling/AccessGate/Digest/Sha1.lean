import AccessGate.Digest.Blocks

/-!
# The SHA-1 digest

* `AccessGate.Digest.Sha1.digest` – the **twenty bytes** of a message's digest.
-/

namespace AccessGate.Digest.Sha1

/-- A word of the algorithm. -/
abbrev Word := BitVec 32

/-- The five words carried from block to block. -/
structure State where
  a : Word
  b : Word
  c : Word
  d : Word
  e : Word

def start : State := ⟨0x67452301, 0xefcdab89, 0x98badcfe, 0x10325476, 0xc3d2e1f0⟩

/-- The words after the first sixteen, `recent` being the last sixteen so far, oldest first. -/
def extend : (count : Nat) → (recent : List Word) → List Word
  | 0, _ => []
  | count + 1, recent =>
      let word := (recent.getD 13 0 ^^^ recent.getD 8 0 ^^^ recent.getD 2 0 ^^^ recent.getD 0 0)
        |>.rotateLeft 1
      word :: extend count (recent.drop 1 ++ [word])

/-- The function and the constant of a round. -/
def mix (round : Nat) (s : State) : Word × Word :=
  if round < 20 then ((s.b &&& s.c) ||| (~~~s.b &&& s.d), 0x5a827999)
  else if round < 40 then (s.b ^^^ s.c ^^^ s.d, 0x6ed9eba1)
  else if round < 60 then ((s.b &&& s.c) ||| (s.b &&& s.d) ||| (s.c &&& s.d), 0x8f1bbcdc)
  else (s.b ^^^ s.c ^^^ s.d, 0xca62c1d6)

/-- One round. -/
def step (s : State) (round : Nat) (word : Word) : State :=
  let (f, k) := mix round s
  ⟨s.a.rotateLeft 5 + f + s.e + k + word, s.a, s.b.rotateLeft 30, s.c, s.d⟩

/-- The rounds of the remaining words. -/
def rounds : State → (round : Nat) → List Word → State
  | s, _, [] => s
  | s, round, word :: rest => rounds (step s round word) (round + 1) rest

/-- One block. -/
def compress (s : State) (block : List Word) : State :=
  let t := rounds s 0 (block ++ extend 64 block)
  ⟨s.a + t.a, s.b + t.b, s.c + t.c, s.d + t.d, s.e + t.e⟩

/-- The digest of a message. -/
def digest (message : List UInt8) : List UInt8 :=
  let s := (blocks 32 message).foldl compress start
  stateBytes [s.a, s.b, s.c, s.d, s.e]

end AccessGate.Digest.Sha1
