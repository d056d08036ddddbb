import MessageLookup.Proofs.Growth

/-! Hosts whose decisive answers persist when the buffer is larger. Growing the buffer then answers
what a single attempt with the largest buffer would, so the first capacity does not matter. -/

namespace MessageLookup

/-- A decisive fill is the same from every larger buffer, up to a maximum. -/
def Persistent (fill : Capacity → Fill) (max : Capacity) : Prop :=
  ∀ c c', (fill c).isDecisive = true → c ≤ c' → c' ≤ max → fill c' = fill c

/-- The capacity only shows in the failure of a fill that is not decisive. -/
theorem Fill.conclude_of_isDecisive {f : Fill} (h : f.isDecisive = true) (code : Int32)
    (c c' : Capacity) : f.conclude code c = f.conclude code c' := by
  cases f with
  | message b => rfl
  | full b => cases h
  | truncated => cases h
  | rejected e => rfl

section

variable {σ : Type} {source : Source σ} {code : Int32} {max c : Capacity} {s : σ}

/-- Either a decisive fill ends the lookup, and persists up to the maximum, or no fill below the
maximum is decisive and the last attempt is the one with the largest buffer. -/
theorem answer_of_persistent {fill : Capacity → Fill} (hp : Persistent fill max) (hc : c ≤ max)
    (hfill : ∀ j, (source.attempt code max c s j).fill = fill (c.nth max j)) :
    (grow source code max c s).1.answer = (fill max).conclude code max := by
  obtain ⟨k, hk⟩ := source.exists_isLeast_ends code max hc s
  have hle : c.nth max k ≤ max := Capacity.nth_le_max hc k
  rw [grow_eq hk]
  change (source.attempt code max c s k).fill.conclude code (c.nth max k) = _
  have hends : source.Ends code max c s k := hk.1
  rw [Source.Ends, hfill] at hends
  rw [hfill]
  rcases hends with hd | hm
  · rw [hp _ _ hd hle (le_refl max.bytes)]
    exact Fill.conclude_of_isDecisive hd code _ _
  · rw [Capacity.eq_of_le_of_le hle hm]

end

def Source.ofFills (fill : Int32 → Capacity → Fill) : Source Unit :=
  fun code c s => (⟨fill code c, [⟨code, c.bytes⟩]⟩, s)

def Fill.whole (message : Bytes) (c : Capacity) : Fill :=
  if message.length < c.bytes then .message message else .truncated

theorem persistent_whole (message : Bytes) (max : Capacity) :
    Persistent (Fill.whole message) max := by
  intro c c' hd hle _
  by_cases h : message.length < c.bytes
  · rw [Fill.whole, Fill.whole, if_pos h, if_pos (Nat.lt_of_lt_of_le h hle)]
  · rw [Fill.whole, if_neg h] at hd
    cases hd

/-- When decisive answers persist, growing the buffer answers what one attempt with the largest
buffer would, from every first capacity and every state. -/
theorem grow_answers_as_largest {σ : Type} (source : Source σ) (fill : Int32 → Capacity → Fill)
    (hfill : ∀ code c s, (source code c s).1.fill = fill code c)
    (code : Int32) (r : Resolver) (hp : Persistent (fill code) r.max) (s : σ) :
    let answer := (grow source code r.max r.initial s).1.answer
    (∀ b, fill code r.max = .message b ∨ fill code r.max = .full b →
      answer = .ok (Utf8.decodeLossy b)) ∧
    (fill code r.max = .truncated → answer = .error (.bufferTooSmall code r.max.bytes)) ∧
    (fill code r.max = .rejected Errno.invalidArgument → answer = .error (.unknownCode code)) ∧
    (∀ e, fill code r.max = .rejected e → e ≠ Errno.invalidArgument →
      answer = .error (.failed code e)) ∧
    ∀ (r' : Resolver) (s' : σ), r'.max = r.max →
      (grow source code r'.max r'.initial s').1.answer = answer := by
  have hanswer : ∀ (r' : Resolver) (s' : σ), r'.max = r.max →
      (grow source code r'.max r'.initial s').1.answer = (fill code r.max).conclude code r.max := by
    intro r' s' hr
    rw [← hr] at hp ⊢
    exact answer_of_persistent hp r'.initial_le_max fun j => hfill _ _ _
  intro answer
  have hconclude : answer = (fill code r.max).conclude code r.max := hanswer r s rfl
  refine ⟨?_, ?_, ?_, ?_, ?_⟩
  · rintro b (hb | hb) <;> rw [hconclude, hb] <;> rfl
  · intro ht
    rw [hconclude, ht]
    rfl
  · intro he
    rw [hconclude, he]
    rfl
  · intro e he hne
    rw [hconclude, he]
    simp only [Fill.conclude, if_neg hne]
  · intro r' s' hr
    rw [hconclude, hanswer r' s' hr]

-- capacities 1, 2 and 4: the message is found below the maximum
theorem grow_answers_as_largest_abc :
    let r : Resolver := Resolver.sized 1 5
    let fill : Int32 → Capacity → Fill := fun _ => Fill.whole [97, 98, 99]
    (∀ code c s, (Source.ofFills fill code c s).1.fill = fill code c) ∧
      Persistent (fill 7) r.max ∧
      (grow (Source.ofFills fill) 7 r.max r.initial ()).1.answer = .ok "abc" := by
  intro r fill
  have hfill : ∀ code c s, (Source.ofFills fill code c s).1.fill = fill code c := fun _ _ _ => rfl
  have hp : Persistent (fill 7) r.max := persistent_whole _ _
  have hmax : fill 7 r.max = .message [97, 98, 99] := by decide
  exact ⟨hfill, hp, (grow_answers_as_largest _ fill hfill 7 r hp ()).1 _ (Or.inl hmax)⟩

end MessageLookup
