/-!
# Byte strings and big-endian fields

* `Bytes` : a byte string, first byte first;
* `Bytes.ofNat k n` : the `k`-byte big-endian field that holds `n` modulo `256 ^ k`
  (`length_ofNat`, `toNat_ofNat`);
* `Bytes.toNat bs` : the value of a big-endian field (`toNat_append`, `toNat_lt`);
* `Bytes.cut n bs` : pieces of `n` bytes.
-/

namespace Spdy

/-- A byte string, first byte first. -/
abbrev Bytes := List UInt8

namespace Bytes

def ofNat : Nat → Nat → Bytes
  | 0, _ => []
  | k + 1, n => UInt8.ofNat (n / Nat.pow 256 k) :: ofNat k n

/-- The value of a field, most significant byte first. -/
def toNat (bs : Bytes) : Nat := bs.foldl (fun n b => n * 256 + b.toNat) 0

/-- Pieces of `n` bytes, the last of which may be shorter; one piece if `n` is 0. -/
def cut (n : Nat) (bs : Bytes) : List Bytes :=
  if n = 0 then [bs]
  else if bs.isEmpty then []
  else bs.take n :: cut n (bs.drop n)
termination_by bs.length
decreasing_by
  rename_i h
  have : 0 < bs.length := List.length_pos_iff.2 (by simpa using h)
  rw [List.length_drop]
  omega

/-! ## Laws -/

@[simp] theorem length_ofNat (k n : Nat) : (ofNat k n).length = k := by
  induction k with
  | zero => rfl
  | succ k ih => simp [ofNat, ih]

theorem pow_succ (k : Nat) : Nat.pow 256 (k + 1) = Nat.pow 256 k * 256 := rfl

theorem foldl_toNat (bs : Bytes) (m : Nat) :
    bs.foldl (fun n b => n * 256 + b.toNat) m = m * Nat.pow 256 bs.length + bs.toNat := by
  induction bs generalizing m with
  | nil => simp [toNat]
  | cons b r ih =>
    simp only [toNat, List.foldl_cons, List.length_cons, pow_succ]
    rw [ih (m * 256 + b.toNat), ih (0 * 256 + b.toNat), Nat.zero_mul, Nat.zero_add, Nat.add_mul,
      Nat.mul_assoc, Nat.mul_comm 256, Nat.add_assoc]

theorem toNat_cons (b : UInt8) (r : Bytes) :
    toNat (b :: r) = b.toNat * Nat.pow 256 r.length + r.toNat := by
  rw [toNat, List.foldl_cons, foldl_toNat, Nat.zero_mul, Nat.zero_add]

theorem toNat_append (a b : Bytes) : toNat (a ++ b) = a.toNat * Nat.pow 256 b.length + b.toNat := by
  rw [toNat, List.foldl_append, foldl_toNat]
  rfl

theorem toNat_lt (bs : Bytes) : bs.toNat < Nat.pow 256 bs.length := by
  induction bs with
  | nil => simp [toNat]
  | cons b r ih =>
    have hb : b.toNat < 256 := b.toNat_lt
    have : (b.toNat + 1) * Nat.pow 256 r.length ≤ 256 * Nat.pow 256 r.length :=
      Nat.mul_le_mul_right _ hb
    rw [toNat_cons, List.length_cons, pow_succ, Nat.mul_comm (Nat.pow 256 r.length)]
    rw [Nat.add_mul] at this
    omega

theorem toNat_ofNat (k n : Nat) : (ofNat k n).toNat = n % Nat.pow 256 k := by
  induction k with
  | zero => simp [ofNat, toNat, Nat.mod_one]
  | succ k ih =>
    have hb : (UInt8.ofNat (n / Nat.pow 256 k)).toNat = n / Nat.pow 256 k % 256 :=
      UInt8.toNat_ofNat'
    rw [ofNat, toNat_cons, length_ofNat, ih, hb, pow_succ, Nat.mod_mul, Nat.add_comm,
      Nat.mul_comm]

end Bytes

end Spdy
