import MessageLookup.Proofs.Failures

/-! How long a lookup can take. The capacities alone bound it: doubling reaches the maximum after at
most 64 steps, so 65 attempts are enough whatever the host answers. The sizes of the buffers are
those of exact arithmetic, although doubling saturates. -/

namespace MessageLookup

/-- A host as a function: a request gets a fill, and may change what later requests get. -/
def Source.ofAnswers {σ : Type} (answer : Int32 → Capacity → σ → Fill × σ) : Source σ :=
  fun code c s => (⟨(answer code c s).1, [⟨code, c.bytes⟩]⟩, (answer code c s).2)

/-- What a lookup comes to if it ends within so many attempts. -/
def growWithin {σ : Type} (source : Source σ) (code : Int32) (max : Capacity) :
    Nat → Capacity → σ → Option (Resolution × σ)
  | 0, _, _ => none
  | n + 1, c, s =>
    let a := source code c s
    if a.1.fill.isDecisive = true ∨ max ≤ c then some (a.1.conclude code c, a.2)
    else (growWithin source code max n (c.grown max) a.2).map fun rest =>
      (a.1.followedBy code (c.grown max) rest.1, rest.2)

theorem growWithin_of_ends {σ : Type} {source : Source σ} {code : Int32} {max c : Capacity} {s : σ}
    {n k : Nat} (h : source.Ends code max c s k) (hk : k < n) :
    growWithin source code max n c s = some (grow source code max c s) := by
  induction n generalizing k c s with
  | zero => exact absurd hk (Nat.not_lt_zero k)
  | succ n ih =>
    by_cases h0 : source.Ends code max c s 0
    · rw [growWithin, grow_of_ends h0]
      exact if_pos h0
    · cases k with
      | zero => exact absurd h h0
      | succ k =>
        have hrest := ih ((source.ends_succ code max c s k).1 h) (Nat.lt_of_succ_lt_succ hk)
        rw [growWithin, grow_of_not_ends h0, hrest]
        exact if_neg h0

namespace Resolver

variable (r : Resolver)

theorem initial_le_length (j : Nat) : r.initial.bytes ≤ r.length j := by
  have hpow : r.initial.bytes * 1 ≤ r.initial.bytes * 2 ^ j :=
    Nat.mul_le_mul_left _ Nat.one_le_two_pow
  have hmax : r.initial.bytes ≤ r.max.bytes := r.initial_le_max
  rw [length]
  omega

theorem length_lt_length {i j : Nat} (h : r.length i < r.max.bytes) (hij : i < j) :
    r.length i < r.length j := by
  have hpow : r.initial.bytes * 2 ^ i < r.initial.bytes * 2 ^ j :=
    Nat.mul_lt_mul_of_pos_left (Nat.pow_lt_pow_right (by decide) hij) r.initial.pos
  rw [length] at h ⊢
  rw [length]
  omega

theorem pairwise_lengths {k : Nat} (h : ∀ j < k, r.length j < r.max.bytes) :
    ((List.range (k + 1)).map r.length).Pairwise (· < ·) := by
  rw [List.pairwise_map]
  refine List.pairwise_lt_range.imp_of_mem fun hi hj hlt => r.length_lt_length (h _ ?_) hlt
  rw [List.mem_range] at hj
  omega

theorem getLast?_lengths (k : Nat) :
    ((List.range (k + 1)).map r.length).getLast? = some (r.length k) := by
  rw [List.range_succ]
  simp

end Resolver

namespace Options

variable (o : Options)

/-- The sizes are those of the wanted capacities, although the first one is clamped. -/
theorem length_finish (j : Nat) :
    o.finish.length j = min (o.initial.bytes * 2 ^ j) o.max.bytes := by
  have hmax : o.max.bytes * 1 ≤ o.max.bytes * 2 ^ j := Nat.mul_le_mul_left _ Nat.one_le_two_pow
  rw [Resolver.length, o.bytes_initial_finish, o.max_finish, ← Nat.mul_min_mul_right]
  omega

theorem max_le_iff (j : Nat) :
    o.max.bytes ≤ o.initial.bytes * 2 ^ j ↔ o.finish.length j = o.max.bytes := by
  rw [length_finish]
  omega

/-- Doubling gets from one byte to any maximum in 64 steps. -/
theorem exists_isLeast_doubled :
    ∃ k, IsLeast {k | o.max.bytes ≤ o.initial.bytes * 2 ^ k} k ∧ k ≤ 64 := by
  have hmax : o.max.bytes < UInt64.size := o.max.fits
  have hpos : 1 * 2 ^ 64 ≤ o.initial.bytes * 2 ^ 64 := Nat.mul_le_mul_right _ o.initial.pos
  have h64 : o.max.bytes ≤ o.initial.bytes * 2 ^ 64 := by
    simp only [UInt64.size] at hmax
    omega
  classical
  have hex : ∃ k, o.max.bytes ≤ o.initial.bytes * 2 ^ k := ⟨64, h64⟩
  exact ⟨Nat.find hex, ⟨Nat.find_spec hex, fun j hj => Nat.find_min' hex hj⟩, Nat.find_min' hex h64⟩

end Options

section

variable {σ : Type} (answer : Int32 → Capacity → σ → Fill × σ) (code : Int32) (r : Resolver) (s : σ)

theorem growWithin_of_length {k n : Nat} (hk : r.length k = r.max.bytes) (hn : k < n) :
    growWithin (Source.ofAnswers answer) code r.max n r.initial s =
      some (grow (Source.ofAnswers answer) code r.max r.initial s) :=
  growWithin_of_ends (Or.inr ((r.max_le_capacityAt k).2 hk)) hn

/-- A lookup makes an attempt of each size up to one that may end it; the sizes before that are
below the maximum. -/
theorem exists_sizes_grow :
    let source := Source.ofAnswers answer
    ∃ k, source.Ends code r.max r.initial s k ∧ (∀ j < k, r.length j < r.max.bytes) ∧
      (grow source code r.max r.initial s).1.answer =
        (source.attempt code r.max r.initial s k).fill.conclude code (r.capacityAt k) ∧
      (grow source code r.max r.initial s).1.calls.map Call.length =
        (List.range (k + 1)).map r.length := by
  intro source
  obtain ⟨k, hk⟩ := source.exists_isLeast_ends code r.max r.initial_le_max s
  have hgrow := grow_eq hk
  refine ⟨k, hk.1, fun j hj => ?_, by rw [hgrow]; rfl, ?_⟩
  · have hopen : ¬ source.Ends code r.max r.initial s j := fun h => Nat.not_le_of_lt hj (hk.2 h)
    have hne : r.length j ≠ r.max.bytes := fun h => (not_or.1 hopen).2 ((r.max_le_capacityAt j).2 h)
    exact Nat.lt_of_le_of_ne (r.length_le_max j) hne
  · rw [hgrow]
    change ((List.range (k + 1)).flatMap fun j => [_]).map _ = _
    rw [← List.map_eq_flatMap, List.map_map]
    exact List.map_congr_left fun j _ => r.bytes_capacityAt j

variable {answer code r s}

theorem length_eq_max_of_ends {k : Nat}
    (h : (Source.ofAnswers answer).Ends code r.max r.initial s k)
    (hopen : ((Source.ofAnswers answer).attempt code r.max r.initial s k).fill.isDecisive = false) :
    r.length k = r.max.bytes :=
  (r.max_le_capacityAt k).1 (h.resolve_left (by rw [hopen]; exact Bool.false_ne_true))

end

/-- Every lookup ends, and within the attempts that doubling needs to reach the maximum, 65 at most.
Its buffers grow strictly, have the sizes of exact arithmetic, and only one of the maximum makes it
give up or accept a message that takes every byte. -/
theorem grow_sizes_exact {σ : Type} (answer : Int32 → Capacity → σ → Fill × σ) (code : Int32)
    (o : Options) (s : σ) :
    let r := o.finish
    let source := Source.ofAnswers answer
    let found := grow source code r.max r.initial s
    let lengths := found.1.calls.map Call.length
    (∃ k, IsLeast {k | o.max.bytes ≤ o.initial.bytes * 2 ^ k} k ∧ k ≤ 64 ∧
      lengths.length ≤ k + 1 ∧
      ∀ n, k < n → growWithin source code r.max n r.initial s = some found) ∧
    lengths.Pairwise (· < ·) ∧
    (∀ n ∈ lengths, min o.initial.bytes o.max.bytes ≤ n ∧ n ≤ o.max.bytes) ∧
    ∃ k, lengths = (List.range (k + 1)).map (fun j => min (o.initial.bytes * 2 ^ j) o.max.bytes) ∧
      let last := (source.attempt code r.max r.initial s k).fill
      (last = .truncated → found.1.answer = .error (.bufferTooSmall code o.max.bytes)) ∧
      (∀ c n, found.1.answer = .error (.bufferTooSmall c n) →
        n = o.max.bytes ∧ lengths.getLast? = some o.max.bytes) ∧
      ∀ m, last = .full m →
        found.1.answer = .ok (Utf8.decodeLossy m) ∧ lengths.getLast? = some o.max.bytes := by
  intro r source found lengths
  obtain ⟨k, hends, hbelow, hanswer, hlengths⟩ := exists_sizes_grow answer code r s
  have hlengths : lengths = (List.range (k + 1)).map r.length := hlengths
  obtain ⟨bound, hbound, hle⟩ := o.exists_isLeast_doubled
  have hreach : r.length bound = r.max.bytes := (o.max_le_iff bound).1 hbound.1
  refine ⟨⟨bound, hbound, hle, ?_, fun n => growWithin_of_length answer code r s hreach⟩, ?_, ?_,
    k, hlengths.trans (List.map_congr_left fun j _ => o.length_finish j), ?_⟩
  · have hk : k ≤ bound := Nat.le_of_not_lt fun h => absurd (hbelow bound h) (by omega)
    rw [hlengths, List.length_map, List.length_range]
    omega
  · rw [hlengths]
    exact r.pairwise_lengths hbelow
  · intro n hn
    rw [hlengths, List.mem_map] at hn
    obtain ⟨j, -, rfl⟩ := hn
    rw [← o.bytes_initial_finish]
    exact ⟨r.initial_le_length j, r.length_le_max j⟩
  · intro last
    have hmax : last.isDecisive = false →
        (r.capacityAt k).bytes = o.max.bytes ∧ lengths.getLast? = some o.max.bytes := by
      intro hopen
      rw [hlengths, r.getLast?_lengths, r.bytes_capacityAt, length_eq_max_of_ends hends hopen]
      exact ⟨rfl, rfl⟩
    rw [show found.1.answer = last.conclude code _ from hanswer]
    refine ⟨fun ht => ?_, fun c n he => ?_, fun m hm => ?_⟩
    · rw [ht, Fill.conclude, (hmax (by rw [ht]; rfl)).1]
    · rcases Fill.conclude_eq_error he with ⟨ht, heq⟩ | ⟨status, -, heq⟩
      · obtain ⟨hbytes, hlast⟩ := hmax (by rw [ht]; rfl)
        cases heq
        exact ⟨hbytes, hlast⟩
      · split at heq <;> cases heq
    · rw [hm]
      exact ⟨rfl, (hmax (by rw [hm]; rfl)).2⟩

end MessageLookup
