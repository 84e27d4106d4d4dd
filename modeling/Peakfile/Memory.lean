/-
# Requests for memory

Memory is asked for before it is used.  A request for nothing is always met, and one for more
bytes than may be asked for at once never; whether any other is met, the system decides.
-/

namespace Peakfile

/-- A request for memory. -/
inductive Request where
  /-- For the bounds of so many channels. -/
  | bounds (channels : Nat)
  /-- For so many bytes of raw audio. -/
  | bytes (count : Nat)
  /-- For so many samples of raw audio. -/
  | samples (count : Nat)
  deriving DecidableEq

namespace Request

/-- Bytes that are asked for.  A sample takes four, and the bounds of a channel are two. -/
def size : Request → Nat
  | bounds channels => 8 * channels
  | bytes count => count
  | samples count => 4 * count

/-- The most bytes that may be asked for at once. -/
def mostBytes : Nat := Nat.pow 2 63 - 1

/-- Whether a request is met, with the answer of the system to it. -/
def isMet (r : Request) (granted : Bool) : Bool :=
  r.size = 0 || (r.size ≤ mostBytes && granted)

/-- Whether a process can address what is asked for.  Where nothing else is said, the system
grants just this. -/
def isAddressable (r : Request) : Bool := r.size < Nat.pow 2 47

/-- What is granted is met, up to the most that may be asked for. -/
theorem isMet_true {r : Request} (h : r.size ≤ mostBytes) : r.isMet true = true := by
  simp [isMet, h]

/-- What is refused is not met, if it is anything. -/
theorem isMet_false {r : Request} (hsize : r.size ≠ 0) : r.isMet false = false := by
  simp [isMet, hsize]

/-- Channels need memory. -/
theorem size_bounds_ne_zero {channels : Nat} (h : 0 < channels) : (bounds channels).size ≠ 0 :=
  Nat.mul_ne_zero (by decide) (Nat.ne_of_gt h)

/-- As many channels as a header can count are not too many to ask for. -/
theorem size_bounds_le {channels : Nat} (h : channels < UInt32.size) :
    (bounds channels).size ≤ mostBytes :=
  Nat.le_trans (Nat.mul_le_mul_left 8 (Nat.le_of_lt h)) (by decide)

end Request

end Peakfile
