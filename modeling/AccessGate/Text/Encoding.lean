/-!
# Texts as bytes

* `AccessGate.Text.utf8` and `AccessGate.Text.ofUtf8?` – a text **in UTF-8 and back**; bytes that
  are not UTF-8 have no text.
* `AccessGate.Text.ofUnmarked?` – a text whose encoding nobody stated. A byte order mark tells it;
  without one the zero bytes among the first four do, since the text starts with two ASCII
  characters, and a text without zero bytes is in UTF-8.
-/

namespace AccessGate.Text

def utf8 (s : String) : List UInt8 := s.toUTF8.data.toList

def ofUtf8? (bs : List UInt8) : Option String := String.fromUTF8? ⟨bs.toArray⟩

/-- A text read back from its own bytes. -/
theorem ofUtf8?_utf8 (s : String) : ofUtf8? (utf8 s) = some s := by
  rw [ofUtf8?, utf8, Array.toArray_toList]
  exact dif_pos s.isValidUTF8

/-! ### Wide encodings -/

/-- A code point as a character; the halves of a surrogate pair are none. -/
def char? (n : Nat) : Option Char :=
  if h : n.isValidChar then some (Char.ofNatAux n h) else none

/-- Is `n` the first half of a surrogate pair? -/
def isHighHalf (n : Nat) : Bool := decide (0xD800 ≤ n) && decide (n < 0xDC00)

/-- Is `n` the second half of a surrogate pair? -/
def isLowHalf (n : Nat) : Bool := decide (0xDC00 ≤ n) && decide (n < 0xE000)

/-- The code point of a surrogate pair. -/
def joinHalves (high low : Nat) : Nat := 0x10000 + (high - 0xD800) * 0x400 + (low - 0xDC00)

/-- The characters of a row of code units of 16 bits, or of code points; a half without its other
half is an error. -/
def ofUnits16? : List Nat → Option (List Char)
  | [] => some []
  | [n] => (char? n).map ([·])
  | high :: low :: rest =>
      if isHighHalf high && isLowHalf low then do
        let c ← char? (joinHalves high low)
        let cs ← ofUnits16? rest
        return c :: cs
      else do
        let c ← char? high
        let cs ← ofUnits16? (low :: rest)
        return c :: cs

/-- Two bytes a unit, the higher one first if `big`. -/
def units16? (big : Bool) : List UInt8 → Option (List Nat)
  | [] => some []
  | [_] => none
  | a :: b :: rest =>
      (units16? big rest).map
        ((if big then a.toNat * 256 + b.toNat else b.toNat * 256 + a.toNat) :: ·)

/-- Four bytes a unit, the highest one first if `big`. -/
def units32? (big : Bool) : List UInt8 → Option (List Nat)
  | [] => some []
  | a :: b :: c :: d :: rest =>
      let unit (w x y z : UInt8) := ((w.toNat * 256 + x.toNat) * 256 + y.toNat) * 256 + z.toNat
      (units32? big rest).map ((if big then unit a b c d else unit d c b a) :: ·)
  | _ => none

def ofUtf16? (big : Bool) (bs : List UInt8) : Option String :=
  ((units16? big bs).bind ofUnits16?).map String.ofList

def ofUtf32? (big : Bool) (bs : List UInt8) : Option String :=
  ((units32? big bs).bind fun units => units.mapM char?).map String.ofList

/-! ### Telling the encoding -/

/-- The text of bytes that start with a byte order mark, if they do. -/
def ofMarked? : List UInt8 → Option (Option String)
  | 0x00 :: 0x00 :: 0xFE :: 0xFF :: rest => some (ofUtf32? true rest)
  | 0xFF :: 0xFE :: 0x00 :: 0x00 :: rest => some (ofUtf32? false rest)
  | 0xFE :: 0xFF :: rest => some (ofUtf16? true rest)
  | 0xFF :: 0xFE :: rest => some (ofUtf16? false rest)
  | 0xEF :: 0xBB :: 0xBF :: rest => some (ofUtf8? rest)
  | _ => none

/-- The text of bytes in an encoding that has to be told from them. -/
def ofUnmarked? (bs : List UInt8) : Option String :=
  match ofMarked? bs with
  | some text => text
  | none =>
      match bs with
      | a :: b :: c :: d :: _ =>
          if a = 0 then (if b = 0 then ofUtf32? true bs else ofUtf16? true bs)
          else if b = 0 then (if c = 0 ∧ d = 0 then ofUtf32? false bs else ofUtf16? false bs)
          else ofUtf8? bs
      | [a, b] =>
          if a = 0 then ofUtf16? true bs
          else if b = 0 then ofUtf16? false bs
          else ofUtf8? bs
      | _ => ofUtf8? bs

end AccessGate.Text
