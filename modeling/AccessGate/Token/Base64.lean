/-!
# Bytes in base sixty-four

Three bytes are four digits, and one or two bytes left over are two or three, without padding. The
digits are those that need no quoting in a URL.

* `AccessGate.Base64.encode` and `AccessGate.Base64.decode?` – **bytes as digits and back**. Bits of
  the last digit that belong to no byte have to be zero, so that bytes have one form only, except
  that a form may be padded to a multiple of four with one or two equals signs. What was encoded
  reads back (`decode?_encode`);
* `AccessGate.Base64.decodeLoose?` – the bytes of digits **written by others**, in either alphabet
  and with anything between them.
-/

namespace AccessGate.Base64

/-! ### Digits -/

/-- The digit of a number below 64. -/
def digit (n : Nat) : Char :=
  if n < 26 then Char.ofNat (65 + n)
  else if n < 52 then Char.ofNat (71 + n)
  else if n < 62 then Char.ofNat (n - 4)
  else if n = 62 then '-'
  else '_'

/-- The number of a digit. -/
def value? (c : Char) : Option Nat :=
  if 'A' ≤ c ∧ c ≤ 'Z' then some (c.toNat - 65)
  else if 'a' ≤ c ∧ c ≤ 'z' then some (c.toNat - 71)
  else if '0' ≤ c ∧ c ≤ '9' then some (c.toNat + 4)
  else if c = '-' then some 62
  else if c = '_' then some 63
  else none

theorem value?_digit : ∀ n < 64, value? (digit n) = some n := by decide

theorem digit_ne_pad : ∀ n < 64, digit n ≠ '=' := by decide

/-! ### Bytes -/

/-- The numbers of the digits of bytes. -/
def split : List UInt8 → List Nat
  | [] => []
  | [a] => [a.toNat / 4, a.toNat % 4 * 16]
  | [a, b] => [a.toNat / 4, a.toNat % 4 * 16 + b.toNat / 16, b.toNat % 16 * 4]
  | a :: b :: c :: rest =>
      a.toNat / 4 :: (a.toNat % 4 * 16 + b.toNat / 16) ::
        (b.toNat % 16 * 4 + c.toNat / 64) :: c.toNat % 64 :: split rest

/-- The bytes of the numbers of digits. -/
def join? : List Nat → Option (List UInt8)
  | [] => some []
  | [_] => none
  | [w, x] => if x % 16 = 0 then some [UInt8.ofNat (w * 4 + x / 16)] else none
  | [w, x, y] =>
      if y % 4 = 0 then some [UInt8.ofNat (w * 4 + x / 16), UInt8.ofNat (x % 16 * 16 + y / 4)]
      else none
  | w :: x :: y :: z :: rest =>
      (join? rest).map fun bytes =>
        UInt8.ofNat (w * 4 + x / 16) :: UInt8.ofNat (x % 16 * 16 + y / 4) ::
          UInt8.ofNat (y % 4 * 64 + z) :: bytes

/-- The characters without padding. Padding is one or two equals signs that make the length a
multiple of four. -/
def unpadded (cs : List Char) : List Char :=
  if cs.length % 4 = 0 then
    match cs.reverse with
    | '=' :: '=' :: rest => rest.reverse
    | '=' :: rest => rest.reverse
    | _ => cs
  else cs

/-- The digits of bytes. -/
def encode (bytes : List UInt8) : List Char := (split bytes).map digit

/-- The bytes of digits. -/
def decode? (cs : List Char) : Option (List UInt8) := ((unpadded cs).mapM value?).bind join?

/-! ### Loose forms -/

/-- The number of a digit of either alphabet. -/
def looseValue? (c : Char) : Option Nat :=
  if c = '+' then some 62 else if c = '/' then some 63 else value? c

/-- The numbers of the digits among characters, up to the first padding that completes a group of
four. `place` digits of a group and `pads` of its padding came before; other characters do not
count, and a group that stays open is an error. -/
def looseDigits (place pads : Nat) : List Char → Option (List Nat)
  | [] => if place = 0 then some [] else none
  | c :: rest =>
      if c = '=' then
        if place < 2 then looseDigits place pads rest
        else if 4 ≤ place + pads + 1 then some []
        else looseDigits place (pads + 1) rest
      else
        match looseValue? c with
        | some n => (looseDigits ((place + 1) % 4) 0 rest).map (n :: ·)
        | none => looseDigits place pads rest

/-- The bytes of the numbers of digits, whatever the bits are that belong to no byte. -/
def looseJoin : List Nat → List UInt8
  | [w, x] => [UInt8.ofNat (w * 4 + x / 16)]
  | [w, x, y] => [UInt8.ofNat (w * 4 + x / 16), UInt8.ofNat (x % 16 * 16 + y / 4)]
  | w :: x :: y :: z :: rest =>
      UInt8.ofNat (w * 4 + x / 16) :: UInt8.ofNat (x % 16 * 16 + y / 4) ::
        UInt8.ofNat (y % 4 * 64 + z) :: looseJoin rest
  | _ => []

/-- The bytes of a text that may be padded or not and may have other characters among its digits.
Where it is not padded, it is as if it were, to a multiple of four bytes. -/
def decodeLoose? (s : String) : Option (List UInt8) :=
  let missing := (4 - s.utf8ByteSize % 4) % 4
  (looseDigits 0 0 (s.toList ++ List.replicate missing '=')).map looseJoin

/-! ### Reading back -/

/-- Every digit has a number below 64. -/
theorem lt_of_mem_split {bytes : List UInt8} {n : Nat} (h : n ∈ split bytes) : n < 64 := by
  fun_induction split bytes with
  | case1 => exact absurd h List.not_mem_nil
  | case2 a =>
    have := a.toNat_lt
    simp only [List.mem_cons, List.not_mem_nil, or_false] at h
    omega
  | case3 a b =>
    have := a.toNat_lt
    have := b.toNat_lt
    simp only [List.mem_cons, List.not_mem_nil, or_false] at h
    omega
  | case4 a b c rest ih =>
    have := a.toNat_lt
    have := b.toNat_lt
    have := c.toNat_lt
    simp only [List.mem_cons] at h
    rcases h with h | h | h | h | h
    · omega
    · omega
    · omega
    · omega
    · exact ih h

theorem join?_split (bytes : List UInt8) : join? (split bytes) = some bytes := by
  fun_induction split bytes with
  | case1 => rfl
  | case2 a =>
    have := a.toNat_lt
    rw [join?, if_pos (by omega)]
    have ha : a.toNat / 4 * 4 + a.toNat % 4 * 16 / 16 = a.toNat := by omega
    rw [ha, UInt8.ofNat_toNat]
  | case3 a b =>
    have := a.toNat_lt
    have := b.toNat_lt
    rw [join?, if_pos (by omega)]
    have ha : a.toNat / 4 * 4 + (a.toNat % 4 * 16 + b.toNat / 16) / 16 = a.toNat := by omega
    have hb : (a.toNat % 4 * 16 + b.toNat / 16) % 16 * 16 + b.toNat % 16 * 4 / 4 = b.toNat := by
      omega
    rw [ha, hb, UInt8.ofNat_toNat, UInt8.ofNat_toNat]
  | case4 a b c rest ih =>
    have := a.toNat_lt
    have := b.toNat_lt
    have := c.toNat_lt
    have ha : a.toNat / 4 * 4 + (a.toNat % 4 * 16 + b.toNat / 16) / 16 = a.toNat := by omega
    have hb : (a.toNat % 4 * 16 + b.toNat / 16) % 16 * 16 +
        (b.toNat % 16 * 4 + c.toNat / 64) / 4 = b.toNat := by omega
    have hc : (b.toNat % 16 * 4 + c.toNat / 64) % 4 * 64 + c.toNat % 64 = c.toNat := by omega
    rw [join?, ih, Option.map_some, ha, hb, hc, UInt8.ofNat_toNat, UInt8.ofNat_toNat,
      UInt8.ofNat_toNat]

/-- Without an equals sign there is no padding. -/
theorem unpadded_of_not_mem {cs : List Char} (h : '=' ∉ cs) : unpadded cs = cs := by
  have hr : '=' ∉ cs.reverse := fun hm => h (List.mem_reverse.mp hm)
  rw [unpadded]
  split
  · split
    · next hc => rw [hc] at hr; exact absurd List.mem_cons_self hr
    · next hc => rw [hc] at hr; exact absurd List.mem_cons_self hr
    · rfl
  · rfl

theorem mapM_value?_map_digit {ns : List Nat} (h : ∀ n ∈ ns, n < 64) :
    (ns.map digit).mapM value? = some ns := by
  induction ns with
  | nil => rfl
  | cons n ns ih =>
    rw [List.map_cons, List.mapM_cons, value?_digit n (h n List.mem_cons_self),
      ih fun m hm => h m (List.mem_cons_of_mem _ hm)]
    rfl

/-- **Digits read back.** -/
theorem decode?_encode (bytes : List UInt8) : decode? (encode bytes) = some bytes := by
  have hpad : '=' ∉ encode bytes := by
    intro hm
    obtain ⟨n, hn, he⟩ := List.mem_map.mp hm
    exact digit_ne_pad n (lt_of_mem_split hn) he
  rw [decode?, unpadded_of_not_mem hpad, encode,
    mapM_value?_map_digit fun _ hn => lt_of_mem_split hn]
  exact join?_split bytes

end AccessGate.Base64
