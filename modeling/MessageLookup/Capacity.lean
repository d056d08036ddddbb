/-! Buffer sizes: at least one byte, and a number that fits in 64 bits. -/

namespace MessageLookup

/-- The size of a buffer that is not empty. -/
@[ext]
structure Capacity where
  bytes : Nat
  pos : 0 < bytes
  fits : bytes < UInt64.size
deriving DecidableEq

namespace Capacity

instance : LE Capacity := ⟨fun a b => a.bytes ≤ b.bytes⟩

instance (a b : Capacity) : Decidable (a ≤ b) := inferInstanceAs (Decidable (a.bytes ≤ b.bytes))

instance : Min Capacity := ⟨fun a b => if a ≤ b then a else b⟩

theorem le_def {a b : Capacity} : a ≤ b ↔ a.bytes ≤ b.bytes := Iff.rfl

theorem bytes_min (a b : Capacity) : (min a b).bytes = min a.bytes b.bytes := by
  change (if a ≤ b then a else b).bytes = _
  by_cases h : a.bytes ≤ b.bytes
  · simp [le_def, h]
  · simp [le_def, h]; omega

/-- The capacity of so many bytes, if there is one. -/
def ofNat? (n : Nat) : Option Capacity :=
  if h : 0 < n ∧ n < UInt64.size then some ⟨n, h.1, h.2⟩ else none

/-- Twice the capacity, or the largest one if that is too much. -/
def doubled (c : Capacity) : Capacity where
  bytes := min (c.bytes * 2) (UInt64.size - 1)
  pos := by have := c.pos; simp only [UInt64.size]; omega
  fits := by simp only [UInt64.size]; omega

/-- The next capacity to try: twice as large, never above the maximum. -/
def grown (c max : Capacity) : Capacity := min c.doubled max

/-- Saturation never shows: a maximum has 64 bits itself. -/
theorem bytes_grown (c max : Capacity) : (c.grown max).bytes = min (c.bytes * 2) max.bytes := by
  have := max.fits
  rw [grown, bytes_min]
  change min (min _ _) _ = _
  omega

end Capacity

end MessageLookup
