import Mathlib.Data.List.Basic
import MessageLookup.Sink

/-! Sending bytes to a sink. Chunks and interrupted writes leave no trace: the sink holds the first
bytes of all that was sent to it, as many as it has room for, and a text is refused exactly if it
does not fit behind what was sent before. -/

namespace MessageLookup.Sink

/-- The sink holds so many bytes. -/
def Fits (s : Sink) (n : Nat) : Prop := ∀ l ∈ s.limit, n ≤ l

instance (s : Sink) (n : Nat) : Decidable (s.Fits n) :=
  inferInstanceAs (Decidable (∀ l ∈ s.limit, n ≤ l))

/-- How a sink without room refuses a text. -/
def fullFailure (s : Sink) : WriteFailure :=
  match s.whenFull with
  | .refuses reason => .refused reason
  | .takesNothing => .tookNothing

/-- Why a text is refused after these bytes were sent, if it is. -/
def failureFor (s : Sink) (sent text : Bytes) : Option WriteFailure :=
  if text = [] ∨ s.Fits (sent ++ text).length then none else some s.fullFailure

/-- The sink after these bytes were sent to it and it was flushed so many times. -/
def after (s : Sink) (sent : Bytes) (flushes interrupts : Nat) : Sink :=
  { s with written := (sent.within s.limit).toArray, flushes := flushes, interrupts := interrupts }

variable {s : Sink} {sent : Bytes} {f i : Nat}

theorem Fits.mono {m n : Nat} (h : s.Fits n) (hle : m ≤ n) : s.Fits m :=
  fun l hl => Nat.le_trans hle (h l hl)

theorem within_of_fits {b : Bytes} (h : s.Fits b.length) : b.within s.limit = b := by
  cases hl : s.limit with
  | none => rfl
  | some l => exact List.take_of_length_le (h l hl)

/-- Bytes sent to a full sink are lost. -/
theorem within_append_of_full (h : ¬ s.Fits (sent.length + 1)) (more : Bytes) :
    (sent ++ more).within s.limit = sent.within s.limit := by
  cases hl : s.limit with
  | none => simp [Fits, hl] at h
  | some l =>
    have hle : l ≤ sent.length := by
      simp [Fits, hl] at h
      omega
    exact List.take_append_of_le_length hle

theorem after_append_of_full (h : ¬ s.Fits (sent.length + 1)) (more : Bytes) :
    s.after (sent ++ more) f i = s.after sent f i := by
  rw [after, within_append_of_full h, after]

theorem room_after_eq_zero_iff : (s.after sent f i).room = some 0 ↔ ¬ s.Fits (sent.length + 1) := by
  cases hl : s.limit with
  | none => simp [room, after, hl, Fits]
  | some l =>
    simp [room, after, hl, Fits, Bytes.within]
    omega

theorem within_isPrefix (bound : Option Nat) (b : Bytes) : b.within bound <+: b := by
  cases bound with
  | none => exact List.prefix_refl b
  | some n => exact List.take_prefix n b

theorem within_ne_nil {bound : Option Nat} (h : bound ≠ some 0) {b : Bytes} (hb : b ≠ []) :
    b.within bound ≠ [] := by
  cases bound with
  | none => exact hb
  | some n =>
    have hn : n ≠ 0 := fun h0 => h (congrArg some h0)
    simpa [Bytes.within, hn] using hb

theorem accepted_isPrefix (s : Sink) (data : Bytes) : s.accepted data <+: data :=
  (within_isPrefix _ _).trans (within_isPrefix _ _)

theorem fits_accepted (hroom : s.Fits (sent.length + 1)) (data : Bytes) :
    s.Fits (sent.length + ((s.after sent f i).accepted data).length) := by
  intro l hl
  have hlt := hroom l hl
  simp only [Option.mem_def] at hl
  simp [accepted, room, after, hl, Bytes.within]
  omega

section Write

variable {data : Bytes}

theorem write_after_interrupted :
    (s.after sent f (i + 1)).write data = (.interrupted, s.after sent f i) := by
  simp [write, after]

theorem write_after_full (hfull : ¬ s.Fits (sent.length + 1)) :
    (s.after sent f 0).write data =
      match s.whenFull with
      | .refuses reason => (.refused reason, s.after sent f 0)
      | .takesNothing => (.took 0, s.after sent f 0) := by
  rw [write, if_neg (by simp [after]), if_pos (room_after_eq_zero_iff.2 hfull)]
  rfl

/-- With room left, a write takes some first bytes of the text. -/
theorem write_after_room (hchunk : s.chunk ≠ some 0) (hroom : s.Fits (sent.length + 1))
    (hne : data ≠ []) :
    ∃ b part rest, data = b :: (part ++ rest) ∧ s.Fits (sent ++ b :: part).length ∧
      (s.after sent f 0).write data = (.took (part.length + 1), s.after (sent ++ b :: part) f 0) := by
  have hleft : (s.after sent f 0).room ≠ some 0 := fun h => room_after_eq_zero_iff.1 h hroom
  have htook : (s.after sent f 0).accepted data ≠ [] :=
    within_ne_nil hleft (within_ne_nil hchunk hne)
  have hfits := fits_accepted (f := f) (i := 0) hroom data
  have hwrite : (s.after sent f 0).write data =
      (.took ((s.after sent f 0).accepted data).length,
        { s.after sent f 0 with
          written := (s.after sent f 0).written ++ (s.after sent f 0).accepted data }) := by
    rw [write, if_neg (by simp [after]), if_neg hleft]
  obtain ⟨rest, hdata⟩ := accepted_isPrefix (s.after sent f 0) data
  rw [hwrite]
  generalize (s.after sent f 0).accepted data = taken at htook hfits hdata ⊢
  obtain ⟨b, part, rfl⟩ := List.exists_cons_of_ne_nil htook
  rw [← List.length_append] at hfits
  refine ⟨b, part, rest, hdata.symm, hfits, ?_⟩
  have hsent : s.Fits sent.length := hfits.mono (by simp)
  simp [after, within_of_fits hfits, within_of_fits hsent]

end Write

section WriteAll

theorem writeAll_cons (s : Sink) (b : UInt8) (rest : Bytes) :
    s.writeAll (b :: rest) =
      match s.write (b :: rest) with
      | (.interrupted, s') => s'.writeAll (b :: rest)
      | (.refused reason, s') => (some (.refused reason), s')
      | (.took 0, s') => (some .tookNothing, s')
      | (.took (n + 1), s') => s'.writeAll (rest.drop n) := by
  rw [writeAll]
  split <;> rename_i hw <;> rw [hw]

/-- Interrupted writes are forgotten. -/
theorem writeAll_after_interrupts {data : Bytes} (hne : data ≠ []) :
    (s.after sent f i).writeAll data = (s.after sent f 0).writeAll data := by
  obtain ⟨b, rest, rfl⟩ := List.exists_cons_of_ne_nil hne
  induction i with
  | zero => rfl
  | succ i ih =>
    rw [writeAll_cons, write_after_interrupted]
    exact ih

theorem writeAll_after_full (hfull : ¬ s.Fits (sent.length + 1)) {data : Bytes} (hne : data ≠ []) :
    (s.after sent f 0).writeAll data = (some s.fullFailure, s.after sent f 0) := by
  obtain ⟨b, rest, rfl⟩ := List.exists_cons_of_ne_nil hne
  rw [writeAll_cons, write_after_full hfull, fullFailure]
  cases s.whenFull <;> rfl

theorem failureFor_append {a : Bytes} (h : s.failureFor sent a = none) (b : Bytes) :
    s.failureFor sent (a ++ b) = s.failureFor (sent ++ a) b := by
  unfold failureFor at h ⊢
  simp only [ite_eq_left_iff, reduceCtorEq, imp_false, not_not] at h
  rcases h with rfl | h
  · simp
  · by_cases hb : b = []
    · subst hb
      rw [List.append_nil, if_pos (Or.inr h), if_pos (Or.inl rfl)]
    · simp [hb]

theorem failureFor_eq_some {text : Bytes} {failure : WriteFailure}
    (h : s.failureFor sent text = some failure) :
    text ≠ [] ∧ ¬ s.Fits (sent ++ text).length ∧ failure = s.fullFailure := by
  unfold failureFor at h
  split at h
  · cases h
  · rename_i hfull
    obtain ⟨hne, hcut⟩ := not_or.1 hfull
    exact ⟨hne, hcut, (Option.some.inj h).symm⟩

theorem failureFor_append_of_some {a : Bytes} {failure : WriteFailure}
    (h : s.failureFor sent a = some failure) (b : Bytes) :
    s.failureFor sent (a ++ b) = some failure := by
  obtain ⟨hne, hcut, rfl⟩ := failureFor_eq_some h
  refine if_neg (not_or.2 ⟨by simp [hne], fun hfits => hcut (hfits.mono ?_)⟩)
  simp only [List.length_append]
  omega

/-- A text is written whole if it fits, and otherwise as far as it does. -/
theorem writeAll_after_uninterrupted (hchunk : s.chunk ≠ some 0) (data : Bytes) :
    (s.after sent f 0).writeAll data =
      (s.failureFor sent data, s.after (sent ++ data) f 0) := by
  induction hlen : data.length using Nat.strongRecOn generalizing sent data with
  | _ n ih =>
    by_cases hne : data = []
    · subst hne
      simp [writeAll, failureFor]
    · by_cases hroom : s.Fits (sent.length + 1)
      · obtain ⟨b, part, rest, rfl, hfits, hwrite⟩ := write_after_room (f := f) hchunk hroom hne
        have hrest : rest.length < n := by
          simp only [List.length_cons, List.length_append] at hlen
          omega
        have hpart : s.failureFor sent (b :: part) = none := if_pos (Or.inr hfits)
        rw [writeAll_cons, hwrite, ← List.cons_append, ← List.append_assoc,
          failureFor_append hpart]
        simp only [List.drop_left, ih rest.length hrest rest rfl]
      · have hcut : ¬ s.Fits (sent ++ data).length := by
          have hlen' := List.length_pos_of_ne_nil hne
          exact fun h => hroom (h.mono (by rw [List.length_append]; omega))
        rw [writeAll_after_full hroom hne, after_append_of_full hroom, failureFor,
          if_neg (not_or.2 ⟨hne, hcut⟩)]

theorem writeAll_after (hchunk : s.chunk ≠ some 0) (data : Bytes) :
    ∃ j, (s.after sent f i).writeAll data = (s.failureFor sent data, s.after (sent ++ data) f j) := by
  by_cases hne : data = []
  · subst hne
    exact ⟨i, by simp [writeAll, failureFor]⟩
  · exact ⟨0, by rw [writeAll_after_interrupts hne, writeAll_after_uninterrupted hchunk]⟩

end WriteAll

/-- The bytes of a text in parts. -/
def bytesOf (parts : List String) : Bytes := parts.flatMap Utf8.encode

theorem writeParts_after (hchunk : s.chunk ≠ some 0) (parts : List String) :
    ∃ j, (s.after sent f i).writeParts parts =
      (s.failureFor sent (bytesOf parts), s.after (sent ++ bytesOf parts) f j) := by
  induction parts generalizing sent i with
  | nil => exact ⟨i, by simp [writeParts, bytesOf, failureFor]⟩
  | cons part parts ih =>
    obtain ⟨j, hwrite⟩ := writeAll_after (f := f) (i := i) hchunk (Utf8.encode part)
    have hbytes : bytesOf (part :: parts) = Utf8.encode part ++ bytesOf parts := rfl
    rw [writeParts, hwrite, hbytes]
    cases hfail : s.failureFor sent (Utf8.encode part) with
    | none =>
      obtain ⟨k, hrest⟩ := @ih (sent ++ Utf8.encode part) j
      exact ⟨k, by rw [failureFor_append hfail, ← List.append_assoc]; exact hrest⟩
    | some failure =>
      -- what follows is not written any more, and would not fit either
      have hfull : ¬ s.Fits ((sent ++ Utf8.encode part).length + 1) :=
        fun h => (failureFor_eq_some hfail).2.1 (h.mono (Nat.le_succ _))
      refine ⟨j, ?_⟩
      rw [failureFor_append_of_some hfail, ← List.append_assoc, after_append_of_full hfull]

/-- A text that is not empty is followed by a flush exactly if it was written whole. -/
theorem deliver_after (sent : Bytes) (hchunk : s.chunk ≠ some 0) {parts : List String}
    (hne : bytesOf parts ≠ []) :
    ∃ j, (s.after sent f i).deliver parts =
      if s.Fits (sent ++ bytesOf parts).length then
        (s.flushFailure.map .notFlushed, s.after (sent ++ bytesOf parts) (f + 1) j)
      else (some s.fullFailure, s.after (sent ++ bytesOf parts) f j) := by
  obtain ⟨j, hparts⟩ := @writeParts_after s sent f i hchunk parts
  refine ⟨j, ?_⟩
  rw [deliver, hparts, failureFor]
  by_cases hfits : s.Fits (sent ++ bytesOf parts).length
  · simp only [hfits, or_true, if_true]
    rfl
  · simp only [hne, hfits, or_self, if_false]

end MessageLookup.Sink
