/-
# Little-endian words

A word of `k` bytes is its value's digits to the base 256, the lowest first.
-/

namespace Peakfile

namespace LittleEndian

/-- The lowest `k` bytes of a number, lowest first. -/
def encode : (k : Nat) → (n : Nat) → List UInt8
  | 0, _ => []
  | k + 1, n => UInt8.ofNat n :: encode k (n / 256)

/-- The number whose bytes, lowest first, are given. -/
def decode : List UInt8 → Nat
  | [] => 0
  | b :: rest => b.toNat + 256 * decode rest

/-- A word has the number of bytes asked for. -/
@[simp] theorem length_encode (k n : Nat) : (encode k n).length = k := by
  induction k generalizing n with
  | zero => rfl
  | succ k ih => simp [encode, ih]

/-- A number that fits into `k` bytes is read back. -/
theorem decode_encode (k n : Nat) (h : n < Nat.pow 256 k) : decode (encode k n) = n := by
  induction k generalizing n with
  | zero => simp at h; simp [encode, decode, h]
  | succ k ih =>
    have hk : n / 256 < Nat.pow 256 k := by
      have hmul : n < Nat.pow 256 k * 256 := h
      exact Nat.div_lt_of_lt_mul (by omega)
    rw [encode, decode, ih _ hk, UInt8.toNat_ofNat']
    omega

/-- Every list of bytes is the word of its own value. -/
theorem encode_decode (bytes : List UInt8) : encode bytes.length (decode bytes) = bytes := by
  induction bytes with
  | nil => rfl
  | cons b rest ih =>
    have hb := b.toNat_lt
    have hdiv : (b.toNat + 256 * decode rest) / 256 = decode rest := by omega
    simp only [List.length_cons, encode, decode, hdiv, ih, List.cons.injEq, and_true]
    apply UInt8.toNat_inj.1
    rw [UInt8.toNat_ofNat']
    omega

end LittleEndian

end Peakfile
