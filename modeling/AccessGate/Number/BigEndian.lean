/-!
# Numbers as bytes

* `AccessGate.BigEndian.value` – the **number that bytes stand for**, the highest byte first. Bytes
  of value zero in front do not count.
-/

namespace AccessGate.BigEndian

/-- The number that bytes stand for. -/
def value (bs : List UInt8) : Nat := bs.foldl (fun n b => 256 * n + b.toNat) 0

/-- Bytes that go on are a number that goes on. -/
theorem foldl_eq (n : Nat) (bs : List UInt8) :
    bs.foldl (fun n b => 256 * n + b.toNat) n = n * Nat.pow 256 bs.length + value bs := by
  induction bs generalizing n with
  | nil => exact (Nat.mul_one n).symm
  | cons b bs ih =>
    have hv : value (b :: bs) = b.toNat * Nat.pow 256 bs.length + value bs := by
      rw [value, List.foldl_cons, ih, Nat.mul_zero, Nat.zero_add]
    have hp : Nat.pow 256 (b :: bs).length = Nat.pow 256 bs.length * 256 := rfl
    rw [List.foldl_cons, ih, hv, hp, Nat.add_mul, Nat.add_assoc, Nat.mul_comm 256 n,
      Nat.mul_assoc, Nat.mul_comm 256]

theorem value_append (as bs : List UInt8) :
    value (as ++ bs) = value as * Nat.pow 256 bs.length + value bs := by
  rw [value, List.foldl_append, foldl_eq]
  rfl

end AccessGate.BigEndian
