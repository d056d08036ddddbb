/-! Byte strings as the host library sees them: a message ends at its first NUL, and writing to a
buffer replaces its first bytes and leaves the others. -/

namespace MessageLookup

/-- A string of bytes, or the contents of a buffer. -/
abbrev Bytes := List UInt8

namespace Bytes

/-- The bytes before the first NUL, all of them if there is none. -/
def upToNul (b : Bytes) : Bytes := b.takeWhile (· != 0)

/-- The buffer after its first bytes were replaced. -/
def overwrite (buffer front : Bytes) : Bytes := front ++ buffer.drop front.length

def zeroed (n : Nat) : Bytes := List.replicate n 0

theorem length_upToNul_le (b : Bytes) : b.upToNul.length ≤ b.length :=
  (List.takeWhile_prefix _).length_le

/-- A NUL is found exactly when the message is shorter than the buffer. -/
theorem length_upToNul_lt_iff (b : Bytes) : b.upToNul.length < b.length ↔ (0 : UInt8) ∈ b := by
  induction b with
  | nil => simp [upToNul]
  | cons x xs ih =>
    by_cases h : x = 0
    · simp [upToNul, h]
    · simpa [upToNul, h, Ne.symm h] using ih

theorem nul_not_mem_upToNul (b : Bytes) : (0 : UInt8) ∉ b.upToNul := by
  induction b with
  | nil => simp [upToNul]
  | cons x xs ih =>
    by_cases h : x = 0
    · simp [upToNul, h]
    · simpa [upToNul, h, Ne.symm h] using ih

theorem length_overwrite (buffer front : Bytes) (h : front.length ≤ buffer.length) :
    (buffer.overwrite front).length = buffer.length := by
  simp [overwrite]; omega

end Bytes

end MessageLookup
