import MessageLookup.Proofs.FreshBuffer
import MessageLookup.Proofs.Persistence

/-! A lookup on a host, call by call. All calls of a lookup are for one code, so call `j` gets reply
`j` of those that the host has for the code, with a fresh buffer of `min (initial * 2 ^ j) max`
bytes. `resolve_spec` says what a lookup leaves in terms of these calls. -/

namespace MessageLookup

/-- The reply to call `j` for a code, counted from now, when all calls are for that code. -/
def Answers.replyAt {ρ : Type} (answers : Answers ρ) (code : Int32) (j : Nat) : ρ :=
  ((·.advance code)^[j] answers).reply code

theorem Answers.replyAt_steady {ρ : Type} (f : Int32 → ρ) (code : Int32) (j : Nat) :
    (steady f).replyAt code j = f code := by
  induction j with
  | zero => rfl
  | succ j ih => exact ih

theorem Answers.replyAt_iterate {ρ : Type} (a : Answers ρ) (code : Int32) (i j : Nat) :
    ((·.advance code)^[j] a).replyAt code i = a.replyAt code (j + i) := by
  rw [replyAt, replyAt, ← Function.iterate_add_apply, Nat.add_comm]

theorem Host.fill_of_ne_nil {b : Backend} (h : Host b) (code : Int32) {buffer : Bytes}
    (hne : buffer ≠ []) :
    h.fill code buffer =
      ({ fill := b.interpret (h.served code buffer).buffer (h.served code buffer).result
         calls := [⟨code, buffer.length⟩]
         buffer := (h.served code buffer).buffer },
        h.after code (h.served code buffer).result) := by
  rw [fill, if_neg (by simpa using hne)]

/-- The fill is the doing of the reply and of the error number before the call. -/
theorem Host.fill_eq_fillOn {b : Backend} (h : Host b) (code : Int32) {buffer : Bytes}
    (hne : buffer ≠ []) :
    (h.fill code buffer).1.fill = b.fillOn (h.answers.reply code) h.errno buffer := by
  rw [fill_of_ne_nil h code hne]
  rfl

theorem Host.attempt_eq {b : Backend} (code : Int32) (c : Capacity) (h : Host b) :
    Host.attempt code c h =
      (⟨b.freshFill (h.answers.reply code) h.errno c.bytes, [⟨code, c.bytes⟩]⟩,
        h.after code (h.served code (Bytes.zeroed c.bytes)).result) := by
  have hlen := Bytes.length_zeroed c.bytes
  rw [attempt, fill_of_ne_nil h code (Bytes.zeroed_ne_nil c.pos), hlen]
  rfl

namespace Resolver

variable {b : Backend} (r : Resolver) (code : Int32) (h : Host b)

/-- The length of call `j`. -/
def length (j : Nat) : Nat := min (r.initial.bytes * 2 ^ j) r.max.bytes

def capacityAt (j : Nat) : Capacity := r.initial.nth r.max j

theorem bytes_capacityAt (j : Nat) : (r.capacityAt j).bytes = r.length j :=
  Capacity.bytes_nth r.initial_le_max j

theorem length_pos (j : Nat) : 0 < r.length j := by
  rw [← bytes_capacityAt]
  exact (r.capacityAt j).pos

theorem length_le_max (j : Nat) : r.length j ≤ r.max.bytes := Nat.min_le_right _ _

theorem max_le_capacityAt (j : Nat) : r.max ≤ r.capacityAt j ↔ r.length j = r.max.bytes := by
  rw [Capacity.le_def, bytes_capacityAt]
  exact ⟨fun hm => Nat.le_antisymm (r.length_le_max j) hm, fun hm => hm.ge⟩

/-- The host before call `j`. -/
def hostAt (j : Nat) : Host b := Source.state Host.attempt code r.max r.initial h j

theorem answers_hostAt (j : Nat) :
    (r.hostAt code h j).answers = (·.advance code)^[j] h.answers := by
  induction j with
  | zero => rfl
  | succ j ih =>
    rw [Function.iterate_succ_apply', ← ih, hostAt, Source.state, Host.attempt_eq]
    rfl

/-- What comes of call `j`. -/
def fillAt (j : Nat) : Fill :=
  b.freshFill (h.answers.replyAt code j) (r.hostAt code h j).errno (r.length j)

theorem fillAt_of_steady {f : Int32 → b.Reply} (ha : h.answers = .steady f) (j : Nat) :
    r.fillAt code h j = b.freshFill (f code) (r.hostAt code h j).errno (r.length j) := by
  rw [fillAt, ha, Answers.replyAt_steady]

theorem reply_hostAt (j : Nat) :
    (r.hostAt code h j).answers.reply code = h.answers.replyAt code j := by
  rw [answers_hostAt]
  rfl

theorem attempt_eq (j : Nat) :
    Source.attempt Host.attempt code r.max r.initial h j =
      ⟨r.fillAt code h j, [⟨code, r.length j⟩]⟩ := by
  rw [Source.attempt, Host.attempt_eq, fillAt, ← reply_hostAt, ← bytes_capacityAt]
  rfl

/-- Call `j` gets a fresh buffer, and the next call finds the host as it left it. -/
theorem fill_hostAt (j : Nat) :
    ((r.hostAt code h j).fill code (Bytes.zeroed (r.length j))).1.fill = r.fillAt code h j ∧
      ((r.hostAt code h j).fill code (Bytes.zeroed (r.length j))).2 = r.hostAt code h (j + 1) := by
  have hattempt := r.attempt_eq code h j
  rw [Source.attempt] at hattempt
  rw [← bytes_capacityAt]
  exact ⟨congrArg Attempt.fill hattempt, rfl⟩

/-- What the host does when it gets call `j`. -/
def servedAt (j : Nat) : Served b.Return :=
  (r.hostAt code h j).served code (Bytes.zeroed (r.length j))

theorem fillAt_eq_interpret (j : Nat) :
    r.fillAt code h j = b.interpret (r.servedAt code h j).buffer (r.servedAt code h j).result := by
  rw [fillAt, servedAt, Host.served, reply_hostAt, Backend.freshFill,
    Backend.fillOn]

/-- Call `k` is the first whose fill is decisive or whose buffer is the largest, and the lookup ends
with it. -/
theorem resolve_spec :
    ∃ k, IsLeast {j | (r.fillAt code h j).isDecisive = true ∨ r.length j = r.max.bytes} k ∧
      r.resolve code h =
        (⟨(r.fillAt code h k).conclude code (r.capacityAt k),
          (List.range (k + 1)).map fun j => ⟨code, r.length j⟩,
          (List.range k).map (fun j => .growing code (r.capacityAt (j + 1))) ++
            (r.fillAt code h k).closing code (r.capacityAt k)⟩, r.hostAt code h (k + 1)) := by
  obtain ⟨k, hk⟩ := Source.exists_isLeast_ends Host.attempt code r.max r.initial_le_max h
  have hset : {j | Source.Ends Host.attempt code r.max r.initial h j} =
      {j | (r.fillAt code h j).isDecisive = true ∨ r.length j = r.max.bytes} := by
    ext j
    change Source.Ends Host.attempt code r.max r.initial h j ↔ _ ∨ _
    rw [Source.Ends, attempt_eq, ← max_le_capacityAt]
    rfl
  refine ⟨k, hset ▸ hk, ?_⟩
  rw [resolve, grow_eq hk, Source.endingAt]
  simp only [attempt_eq]
  rw [← List.map_eq_flatMap]
  rfl

/-- The call that ends a lookup. -/
def EndsAt (k : Nat) : Prop :=
  IsLeast {j | (r.fillAt code h j).isDecisive = true ∨ r.length j = r.max.bytes} k

theorem exists_length_calls : ∃ k, (r.resolve code h).1.calls.length = k + 1 := by
  obtain ⟨k, -, hres⟩ := r.resolve_spec code h
  exact ⟨k, by rw [hres, List.length_map, List.length_range]⟩

section EndsAt

variable {r code h} {k : Nat}

theorem EndsAt.resolve_eq (hk : r.EndsAt code h k) :
    r.resolve code h =
      (⟨(r.fillAt code h k).conclude code (r.capacityAt k),
        (List.range (k + 1)).map fun j => ⟨code, r.length j⟩,
        (List.range k).map (fun j => .growing code (r.capacityAt (j + 1))) ++
          (r.fillAt code h k).closing code (r.capacityAt k)⟩, r.hostAt code h (k + 1)) := by
  obtain ⟨k', hk', hres⟩ := r.resolve_spec code h
  obtain rfl := hk.unique hk'
  exact hres

theorem endsAt_of_length (hk : (r.resolve code h).1.calls.length = k + 1) :
    r.EndsAt code h k := by
  obtain ⟨k', hk', hres⟩ := r.resolve_spec code h
  rw [hres, List.length_map, List.length_range] at hk
  obtain rfl : k' = k := by omega
  exact hk'

theorem EndsAt.answer_eq (hk : r.EndsAt code h k) :
    (r.resolve code h).1.answer = (r.fillAt code h k).conclude code (r.capacityAt k) := by
  rw [hk.resolve_eq]

/-- The calls before the last one are not decisive. -/
theorem EndsAt.not_decisive {j : Nat} (hk : r.EndsAt code h k) (hj : j < k) :
    (r.fillAt code h j).isDecisive = false := by
  by_contra hd
  exact Nat.not_le_of_lt hj (hk.2 (Or.inl (Bool.eq_true_of_not_eq_false hd)))

end EndsAt

/-- A first call with a decisive fill is the only one. -/
theorem resolve_of_first_decisive (hd : (r.fillAt code h 0).isDecisive = true) :
    (r.resolve code h).1.answer = (r.fillAt code h 0).conclude code r.initial ∧
      (r.resolve code h).1.calls = [⟨code, r.initial.bytes⟩] := by
  obtain ⟨k, hk, hres⟩ := r.resolve_spec code h
  obtain rfl : k = 0 := Nat.le_zero.1 (hk.2 (Or.inl hd))
  have hlength : r.length 0 = r.initial.bytes := (r.bytes_capacityAt 0).symm
  rw [hres, ← hlength]
  exact ⟨rfl, rfl⟩

/-- With more than `t` bytes the fill is always the same message, and otherwise it is not
decisive. -/
theorem resolve_of_threshold {fill : Nat → Fill} {m : Bytes} {t : Nat}
    (hfill : ∀ j, r.fillAt code h j = fill (r.length j))
    (hmsg : ∀ n, t < n → fill n = .message m)
    (hopen : ∀ n, ¬ t < n → (fill n).isDecisive = false) :
    (r.resolve code h).1.answer = (fill r.max.bytes).conclude code r.max ∧
      ∃ k, IsLeast {j | t < r.length j ∨ r.length j = r.max.bytes} k ∧
        (r.resolve code h).1.calls = (List.range (k + 1)).map fun j => ⟨code, r.length j⟩ := by
  have hiff : ∀ n, (fill n).isDecisive = true ↔ t < n := by
    intro n
    by_cases ht : t < n
    · rw [hmsg n ht]
      exact ⟨fun _ => ht, fun _ => rfl⟩
    · rw [hopen n ht]
      exact ⟨fun hd => absurd hd Bool.false_ne_true, fun hlt => absurd hlt ht⟩
  have hp : Persistent (fun c => fill c.bytes) r.max := by
    intro c c' hd hle _
    have ht : t < c.bytes := (hiff _).1 hd
    change fill c'.bytes = fill c.bytes
    rw [hmsg _ ht, hmsg _ (Nat.lt_of_lt_of_le ht hle)]
  constructor
  · refine answer_of_persistent hp r.initial_le_max fun j => ?_
    rw [attempt_eq, hfill, ← bytes_capacityAt]
    rfl
  · obtain ⟨k, hk, hres⟩ := r.resolve_spec code h
    simp only [hfill, hiff] at hk
    exact ⟨k, hk, by rw [hres]⟩

end Resolver

end MessageLookup
