import Mathlib.Algebra.Order.Ring.Nat
import Mathlib.Data.Nat.Find
import Mathlib.Order.Bounds.Basic
import MessageLookup.Lookup

/-! The growth loop as a sequence of attempts. Both the capacity of attempt `j` and the state before
it are fixed by `j` alone: the capacity is `min (c * 2 ^ j) max`, the state comes from the attempts
before. A lookup ends with the first attempt that is decisive or has the largest buffer, and
everything that it leaves can be read off that index (`grow_eq`). -/

namespace MessageLookup

namespace Capacity

/-- The capacity of attempt `j` of a lookup that starts with `c`. -/
def nth (c max : Capacity) (j : Nat) : Capacity := (·.grown max)^[j] c

theorem nth_zero (c max : Capacity) : c.nth max 0 = c := rfl

theorem nth_succ (c max : Capacity) (j : Nat) : c.nth max (j + 1) = (c.grown max).nth max j := rfl

theorem nth_succ' (c max : Capacity) (j : Nat) : c.nth max (j + 1) = (c.nth max j).grown max :=
  Function.iterate_succ_apply' _ j c

theorem bytes_nth {c max : Capacity} (h : c ≤ max) (j : Nat) :
    (c.nth max j).bytes = min (c.bytes * 2 ^ j) max.bytes := by
  induction j with
  | zero =>
    rw [Capacity.le_def] at h
    rw [nth_zero, Nat.pow_zero, Nat.mul_one, Nat.min_eq_left h]
  | succ j ih =>
    rw [nth_succ', bytes_grown, ih, Nat.pow_succ, ← Nat.mul_assoc]
    omega

theorem nth_le_max {c max : Capacity} (h : c ≤ max) (j : Nat) : c.nth max j ≤ max := by
  rw [Capacity.le_def, bytes_nth h]
  exact Nat.min_le_right _ _

/-- The maximum is reached, since doubling outgrows every number. -/
theorem nth_reaches_max {c max : Capacity} (h : c ≤ max) : max ≤ c.nth max max.bytes := by
  rw [Capacity.le_def, bytes_nth h]
  have hc : 1 * 2 ^ max.bytes ≤ c.bytes * 2 ^ max.bytes := Nat.mul_le_mul_right _ c.pos
  have hm : max.bytes < 2 ^ max.bytes := Nat.lt_two_pow_self
  omega

theorem eq_of_le_of_le {a b : Capacity} (h : a ≤ b) (h' : b ≤ a) : a = b :=
  Capacity.ext (Nat.le_antisymm h h')

end Capacity

/-- The resolver whose buffers have from `i` to `m` bytes. -/
def Resolver.sized (i m : Nat) (hi : 0 < i ∧ i ≤ m := by decide)
    (hm : m < UInt64.size := by decide) : Resolver where
  initial := ⟨i, hi.1, Nat.lt_of_le_of_lt hi.2 hm⟩
  max := ⟨m, Nat.lt_of_lt_of_le hi.1 hi.2, hm⟩
  initial_le_max := hi.2

namespace Source

variable {σ : Type} (source : Source σ) (code : Int32) (max : Capacity)

/-- The state before attempt `j`. -/
def state (c : Capacity) (s : σ) : Nat → σ
  | 0 => s
  | j + 1 => (source code (c.nth max j) (state c s j)).2

/-- What attempt `j` produces. -/
def attempt (c : Capacity) (s : σ) (j : Nat) : Attempt :=
  (source code (c.nth max j) (source.state code max c s j)).1

/-- Attempt `j` would end the lookup. -/
def Ends (c : Capacity) (s : σ) (j : Nat) : Prop :=
  (source.attempt code max c s j).fill.isDecisive = true ∨ max ≤ c.nth max j

theorem state_succ (c : Capacity) (s : σ) (j : Nat) :
    source.state code max c s (j + 1) =
      source.state code max (c.grown max) (source code c s).2 j := by
  induction j with
  | zero => rfl
  | succ j ih => rw [state, ih, Capacity.nth_succ, ← state]

theorem attempt_succ (c : Capacity) (s : σ) (j : Nat) :
    source.attempt code max c s (j + 1) =
      source.attempt code max (c.grown max) (source code c s).2 j := by
  rw [attempt, state_succ, Capacity.nth_succ, attempt]

theorem ends_succ (c : Capacity) (s : σ) (j : Nat) :
    source.Ends code max c s (j + 1) ↔
      source.Ends code max (c.grown max) (source code c s).2 j := by
  rw [Ends, attempt_succ, Capacity.nth_succ, Ends]

theorem exists_isLeast_ends {c : Capacity} (h : c ≤ max) (s : σ) :
    ∃ k, IsLeast {j | source.Ends code max c s j} k := by
  classical
  have hex : ∃ j, source.Ends code max c s j := ⟨max.bytes, Or.inr (Capacity.nth_reaches_max h)⟩
  exact ⟨Nat.find hex, Nat.find_spec hex, fun j hj => Nat.find_min' hex hj⟩

/-- The lookup that ends with attempt `k`. -/
def endingAt (c : Capacity) (s : σ) (k : Nat) : Resolution where
  answer := (source.attempt code max c s k).fill.conclude code (c.nth max k)
  calls := (List.range (k + 1)).flatMap fun j => (source.attempt code max c s j).calls
  log := (List.range k).map (fun j => .growing code (c.nth max (j + 1))) ++
    (source.attempt code max c s k).fill.closing code (c.nth max k)

theorem endingAt_zero (c : Capacity) (s : σ) :
    source.endingAt code max c s 0 = (source code c s).1.conclude code c := by
  simp [endingAt, Attempt.conclude, attempt, state, Capacity.nth_zero]

theorem endingAt_succ (c : Capacity) (s : σ) (k : Nat) :
    source.endingAt code max c s (k + 1) =
      (source code c s).1.followedBy code (c.grown max)
        (source.endingAt code max (c.grown max) (source code c s).2 k) := by
  simp only [endingAt, Attempt.followedBy, attempt_succ, Capacity.nth_succ]
  rw [List.range_succ_eq_map, List.range_succ_eq_map]
  have hfirst : source.attempt code max c s 0 = (source code c s).1 := rfl
  simp [List.flatMap_map, hfirst, attempt_succ, Capacity.nth_zero, Capacity.nth_succ]

end Source

section Run

variable {σ : Type} {source : Source σ} {code : Int32} {max c : Capacity} {s : σ}

theorem grow_of_ends (h : source.Ends code max c s 0) :
    grow source code max c s = ((source code c s).1.conclude code c, (source code c s).2) := by
  rw [grow]
  rcases h with hd | hm
  · exact if_pos hd
  · simp only [Capacity.nth_zero] at hm
    simp only [hm, if_true, ite_self]

theorem grow_of_not_ends (h : ¬ source.Ends code max c s 0) :
    grow source code max c s =
      ((source code c s).1.followedBy code (c.grown max)
          (grow source code max (c.grown max) (source code c s).2).1,
        (grow source code max (c.grown max) (source code c s).2).2) := by
  obtain ⟨hd, hm⟩ := not_or.1 h
  rw [grow]
  exact (if_neg hd).trans (if_neg hm)

/-- A lookup is the one that ends with its first attempt that may end it. -/
theorem grow_eq {k : Nat} (hk : IsLeast {j | source.Ends code max c s j} k) :
    grow source code max c s =
      (source.endingAt code max c s k, source.state code max c s (k + 1)) := by
  induction k generalizing c s with
  | zero =>
    rw [grow_of_ends hk.1, Source.endingAt_zero]
    rfl
  | succ k ih =>
    -- the first attempt does not end the lookup: what follows is a lookup with the next capacity
    have h0 : ¬ source.Ends code max c s 0 := fun h => absurd (hk.2 h) (Nat.not_succ_le_zero k)
    have hk' : IsLeast {j | source.Ends code max (c.grown max) (source code c s).2 j} k := by
      refine ⟨(source.ends_succ code max c s k).1 hk.1, fun j hj => ?_⟩
      exact Nat.le_of_succ_le_succ (hk.2 ((source.ends_succ code max c s j).2 hj))
    rw [grow_of_not_ends h0, ih hk', Source.endingAt_succ,
      Source.state_succ source code max c s (k + 1)]

end Run

end MessageLookup
