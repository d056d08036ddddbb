import MessageLookup.Proofs.Calls

/-! Lookups that come to the same. Every call has a fresh buffer, so what the host wrote before is
gone, and the error number is all that a call could still tell the next one. Where each call that
returns -1 sets it, a lookup is its last call: it may be started anew at any of its calls, and the
calls that were not decisive may have got any other reply that is not. -/

namespace MessageLookup

namespace Backend

/-- A call with `n` bytes that sets the error number if its status says that it counts. -/
def SetsErrno (n : Nat) : (b : Backend) → b.Reply → Prop
  | gnu => fun _ => True
  | xsi => fun r => (r.reportFor n).status = -1 → (r.reportFor n).errno ≠ none
  | msvcrt => fun _ => True

instance (n : Nat) : (b : Backend) → (r : b.Reply) → Decidable (b.SetsErrno n r)
  | gnu, _ => inferInstanceAs (Decidable True)
  | xsi, r =>
    inferInstanceAs (Decidable ((r.reportFor n).status = -1 → (r.reportFor n).errno ≠ none))
  | msvcrt, _ => inferInstanceAs (Decidable True)

/-- Then the error number before the call does not show. -/
theorem SetsErrno.fillOn_eq {b : Backend} {r : b.Reply} {buffer : Bytes}
    (h : b.SetsErrno buffer.length r) (e e' : Int32) :
    b.fillOn r e buffer = b.fillOn r e' buffer := by
  cases b with
  | gnu => rfl
  | xsi =>
    rw [fillOn_xsi, fillOn_xsi]
    by_cases hs : (r.reportFor buffer.length).status = -1
    -- only now is the error number read, and the call has just set it
    · obtain ⟨errno, herrno⟩ := Option.ne_none_iff_exists'.1 (h hs)
      rw [herrno]
      rfl
    · rw [if_neg hs, if_neg hs]
  | msvcrt => rfl

theorem SetsErrno.freshFill_eq {b : Backend} {n : Nat} {r : b.Reply} (h : b.SetsErrno n r)
    (e e' : Int32) : b.freshFill r e n = b.freshFill r e' n := by
  rw [← Bytes.length_zeroed n] at h
  exact h.fillOn_eq e e'

end Backend

/-- What is left of a lookup after its first calls. -/
def Resolution.from (found : Resolution) (j : Nat) : Resolution :=
  ⟨found.answer, found.calls.drop j, found.log.drop j⟩

theorem Resolution.from_zero (found : Resolution) : found.from 0 = found := rfl

namespace Resolver

variable {b : Backend} {r r' : Resolver} {code : Int32} {h h' : Host b}

/-- Every call of the lookup that returns -1 sets the error number. -/
def SetsErrno (r : Resolver) (code : Int32) (h : Host b) : Prop :=
  ∀ j < (r.resolve code h).1.calls.length, b.SetsErrno (r.length j) (h.answers.replyAt code j)

instance : Decidable (r.SetsErrno code h) :=
  inferInstanceAs (Decidable (∀ j < _, _))

theorem fillAt_eq_fillAt {i j : Nat} (hlength : r'.length i = r.length j)
    (hreply : h'.answers.replyAt code i = h.answers.replyAt code j)
    (hset : b.SetsErrno (r.length j) (h.answers.replyAt code j)) :
    r'.fillAt code h' i = r.fillAt code h j := by
  rw [fillAt, fillAt, hlength, hreply]
  exact hset.freshFill_eq _ _

theorem capacityAt_add {j : Nat} (hinitial : r'.initial = r.capacityAt j) (hmax : r'.max = r.max)
    (i : Nat) : r'.capacityAt i = r.capacityAt (j + i) := by
  rw [capacityAt, hinitial, hmax, capacityAt, capacityAt, Capacity.nth, Capacity.nth, Capacity.nth,
    ← Function.iterate_add_apply, Nat.add_comm]

theorem length_add {j : Nat} (hinitial : r'.initial = r.capacityAt j) (hmax : r'.max = r.max)
    (i : Nat) : r'.length i = r.length (j + i) := by
  rw [← bytes_capacityAt, ← bytes_capacityAt, capacityAt_add hinitial hmax]

/-- A lookup that starts with the buffer of call `j` comes to what is left after `j` calls, if its
last call has the fill of the other's last and no call before is decisive. -/
theorem EndsAt.resolve_eq_from {j k : Nat} (hk : r.EndsAt code h (j + k))
    (hinitial : r'.initial = r.capacityAt j) (hmax : r'.max = r.max)
    (hopen : ∀ i < k, (r'.fillAt code h' i).isDecisive = false)
    (hlast : r'.fillAt code h' k = r.fillAt code h (j + k)) :
    (r'.resolve code h').1 = (r.resolve code h).1.from j := by
  have hlength := length_add hinitial hmax
  have hk' : r'.EndsAt code h' k := by
    refine ⟨?_, fun i hi => ?_⟩
    · have hends : (r.fillAt code h (j + k)).isDecisive = true ∨ r.length (j + k) = r.max.bytes :=
        hk.1
      change _ ∨ _
      rwa [hlast, hlength, hmax]
    -- no call before is decisive, and one with the largest buffer would have ended the other too
    · by_contra hlt
      have hi : (r'.fillAt code h' i).isDecisive = true ∨ r'.length i = r'.max.bytes := hi
      rw [hopen i (Nat.lt_of_not_le hlt), hlength, hmax] at hi
      have hle := hk.2 (Or.inr (hi.resolve_left Bool.false_ne_true))
      omega
  rw [hk.resolve_eq, hk'.resolve_eq, Resolution.from, hlast]
  simp only [hlength, capacityAt_add hinitial hmax]
  have hcalls : List.range (j + k + 1) = List.range j ++ (List.range (k + 1)).map (j + ·) := by
    rw [Nat.add_assoc, List.range_add]
  have hlog : List.range (j + k) = List.range j ++ (List.range k).map (j + ·) := List.range_add
  rw [hcalls, hlog]
  simp [List.drop_left', Function.comp_def, Nat.add_assoc]

variable {k : Nat}

/-- Another host with the same last reply, and other replies before it only to calls that are not
decisive, makes no difference. -/
theorem SetsErrno.resolve_eq (hset : r.SetsErrno code h)
    (hk : (r.resolve code h).1.calls.length = k + 1)
    (hlast : h'.answers.replyAt code k = h.answers.replyAt code k)
    (hbefore : ∀ j < k, h'.answers.replyAt code j = h.answers.replyAt code j ∨
      (r.fillAt code h' j).isDecisive = false) :
    (r.resolve code h').1 = (r.resolve code h).1 := by
  have hends := endsAt_of_length hk
  rw [SetsErrno, hk] at hset
  have hfrom : r.EndsAt code h (0 + k) := by rwa [Nat.zero_add]
  refine (hfrom.resolve_eq_from rfl rfl (fun i hi => ?_) ?_).trans (Resolution.from_zero _)
  · rcases hbefore i hi with hsame | hopen
    · rw [fillAt_eq_fillAt rfl hsame (hset i (by omega))]
      exact hends.not_decisive hi
    · exact hopen
  · rw [Nat.zero_add]
    exact fillAt_eq_fillAt rfl hlast (hset k (by omega))

/-- A lookup that starts at call `j`, where the host is in its replies then, comes to the rest. -/
theorem SetsErrno.resolve_eq_from (hset : r.SetsErrno code h)
    (hk : (r.resolve code h).1.calls.length = k + 1) {j : Nat} (hj : j ≤ k)
    (hinitial : r'.initial = r.capacityAt j) (hmax : r'.max = r.max)
    (hanswers : h'.answers = (·.advance code)^[j] h.answers) :
    (r'.resolve code h').1 = (r.resolve code h).1.from j := by
  have hends := endsAt_of_length hk
  rw [SetsErrno, hk] at hset
  obtain ⟨k, rfl⟩ := Nat.exists_eq_add_of_le hj
  have hfill : ∀ i ≤ k, r'.fillAt code h' i = r.fillAt code h (j + i) := by
    intro i hi
    refine fillAt_eq_fillAt (length_add hinitial hmax i) ?_ (hset _ (by omega))
    rw [hanswers, Answers.replyAt_iterate]
  refine hends.resolve_eq_from hinitial hmax (fun i hi => ?_) (hfill k (Nat.le_refl k))
  rw [hfill i (Nat.le_of_lt hi)]
  exact hends.not_decisive (by omega)

end Resolver

section

variable {b : Backend} (h : Host b) (code : Int32) (r : Resolver)

/-- Where every call that returns -1 sets the error number, a lookup depends on its last reply
alone. Other replies before it change nothing if their calls are not decisive either, and a lookup
that starts at one of the calls comes to what the first one still has to do. -/
theorem resolve_forgets_earlier_calls (hset : r.SetsErrno code h) {k : Nat}
    (hk : (r.resolve code h).1.calls.length = k + 1) :
    (∀ h' : Host b, h'.answers.replyAt code k = h.answers.replyAt code k →
      (∀ j < k, h'.answers.replyAt code j = h.answers.replyAt code j ∨
        r.fillAt code h' j = .truncated ∨ ∃ m, r.fillAt code h' j = .full m) →
      (r.resolve code h').1 = (r.resolve code h).1) ∧
    ∀ j ≤ k, ∀ (r' : Resolver) (h' : Host b),
      r'.initial.bytes = min (r.initial.bytes * 2 ^ j) r.max.bytes → r'.max = r.max →
      h'.answers = (·.advance code)^[j] h.answers →
      (r'.resolve code h').1.answer = (r.resolve code h).1.answer ∧
      (r'.resolve code h').1.calls = (r.resolve code h).1.calls.drop j ∧
      (r'.resolve code h').1.log = (r.resolve code h).1.log.drop j := by
  constructor
  · intro h' hlast hbefore
    refine hset.resolve_eq hk hlast fun j hj => (hbefore j hj).imp_right ?_
    rintro (ht | ⟨m, hm⟩)
    · rw [ht]
      rfl
    · rw [hm]
      rfl
  · intro j hj r' h' hinitial hmax hanswers
    have hstart : r'.initial = r.capacityAt j :=
      Capacity.ext (hinitial.trans (r.bytes_capacityAt j).symm)
    rw [hset.resolve_eq_from hk hj hstart hmax hanswers]
    exact ⟨rfl, rfl, rfl⟩

/-- A host that writes a text without a NUL and has no room, and then a short one without a NUL. -/
def Host.unterminated (first : String) : Host .xsi where
  answers := .scripted
    { common :=
        ⟨{ data := some (Utf8.encode first), ending := .never, report := ⟨-1, some 34⟩ },
          [{ data := some (Utf8.encode "abc"), ending := .never, report := ⟨0, none⟩ }]⟩ }

theorem resolve_forgets_earlier_calls_unterminated :
    let r : Resolver := Resolver.sized 8 16
    let h := Host.unterminated "Invalid argument"
    let h' := Host.unterminated "Broken pipe"
    r.SetsErrno 7 h ∧ (r.resolve 7 h).1.calls.length = 2 ∧
      r.fillAt 7 h' 0 = .truncated ∧ (r.resolve 7 h').1.answer = .ok "abc" ∧
      ((Resolver.sized 16 16).resolve 7 (r.hostAt 7 h 1)).1.calls = [⟨7, 16⟩] := by
  intro r h h'
  have hset : r.SetsErrno 7 h := by decide +kernel
  have hlen : (r.resolve 7 h).1.calls.length = 1 + 1 := by decide +kernel
  have hanswer : (r.resolve 7 h).1.answer = .ok "abc" := by decide +kernel
  have hcalls : (r.resolve 7 h).1.calls = [⟨7, 8⟩, ⟨7, 16⟩] := by decide +kernel
  have htruncated : r.fillAt 7 h' 0 = .truncated := by decide +kernel
  obtain ⟨hreplaced, hresumed⟩ := resolve_forgets_earlier_calls h 7 r hset hlen
  have hsame := hreplaced h' rfl fun j hj => by
    obtain rfl : j = 0 := by omega
    exact Or.inr (Or.inl htruncated)
  have hrest := hresumed 1 (Nat.le_refl 1) (Resolver.sized 16 16) (r.hostAt 7 h 1) rfl rfl
    (r.answers_hostAt 7 h 1)
  refine ⟨hset, hlen, htruncated, by rw [hsame, hanswer], ?_⟩
  rw [hrest.2.1, hcalls]
  rfl

end

end MessageLookup
