import MessageLookup.Proofs.Calls

/-! Pointers into the buffer. A message that ends with the buffer's last byte may be cut off, wherever
in the buffer it starts, so one rule would read them all (`Fill.ofInside`). Only a pointer to the start
is read by it. A message further inside is trusted like a string of the host's own, and a lookup takes
it at once, whatever room there still is. -/

namespace MessageLookup

/-- The reading by the one rule: a message that ends with the last byte may be cut off. -/
def Fill.ofInside (buffer : Bytes) (offset : Nat) : Fill := ofSilent (buffer.drop offset)

section

variable {buffer m rest : Bytes} {o : Nat} (hm : (0 : UInt8) ∉ m)
  (hdrop : buffer.drop o = m ++ 0 :: rest)
include hm hdrop

theorem Pointer.read_inside :
    (inside o).read buffer = if o = 0 ∧ rest = [] then .full m else .message m := by
  cases o with
  | zero =>
    rw [List.drop_zero] at hdrop
    rw [hdrop, read, Fill.ofSilent_of_nul hm]
    simp
  | succ o => rw [read, hdrop, Bytes.upToNul_append_nul hm, if_neg (by simp)]

/-- The rule is kept at the start of the buffer, and where nothing could be cut off. -/
theorem Fill.read_eq_ofInside_iff :
    (Pointer.inside o).read buffer = ofInside buffer o ↔ o = 0 ∨ rest ≠ [] := by
  rw [Pointer.read_inside hm hdrop, ofInside, hdrop, ofSilent_of_nul hm]
  by_cases ho : o = 0
  · simp [ho]
  · by_cases hrest : rest = []
    · simp [ho, hrest]
    · simp [ho, hrest]

omit hm in
theorem Bytes.rest_eq_nil_iff : rest = [] ↔ o + m.length + 1 = buffer.length := by
  have hlen := congrArg List.length hdrop
  rw [List.length_drop, List.length_append, List.length_cons] at hlen
  rw [← List.length_eq_zero_iff]
  omega

end

namespace Resolver

variable {r : Resolver} {code : Int32} {h : Host .gnu} {j o : Nat} {m rest : Bytes}

/-- A call of a lookup that returns a pointer into the buffer is followed by another one only if the
pointer is to the start, the message ends with the last byte, and there is a larger buffer. -/
theorem resolve_of_inside (hj : j < (r.resolve code h).1.calls.length)
    (hret : (r.servedAt code h j).result = Pointer.inside o) (hm : (0 : UInt8) ∉ m)
    (hdrop : (r.servedAt code h j).buffer.drop o = m ++ 0 :: rest) :
    if o = 0 ∧ rest = [] ∧ r.length j < r.max.bytes then
      j + 1 < (r.resolve code h).1.calls.length
    else (r.resolve code h).1.calls.length = j + 1 ∧
      (r.resolve code h).1.answer = .ok (Utf8.decodeLossy m) := by
  obtain ⟨k, hlen⟩ := r.exists_length_calls code h
  have hk : r.EndsAt code h k := endsAt_of_length hlen
  have hends : (r.fillAt code h k).isDecisive = true ∨ r.length k = r.max.bytes := hk.1
  have hfill : r.fillAt code h j = if o = 0 ∧ rest = [] then .full m else .message m := by
    rw [fillAt_eq_interpret, hret]
    exact Pointer.read_inside hm hdrop
  rw [hlen] at hj ⊢
  by_cases hcut : o = 0 ∧ rest = []
  · rw [if_pos hcut] at hfill
    by_cases hmax : r.length j < r.max.bytes
    · rw [if_pos ⟨hcut.1, hcut.2, hmax⟩]
      have hne : k ≠ j := by
        rintro rfl
        rw [hfill] at hends
        exact Nat.ne_of_lt hmax (hends.resolve_left Bool.false_ne_true)
      omega
    · rw [if_neg fun hc => hmax hc.2.2]
      have hle := r.length_le_max j
      obtain rfl : k = j := Nat.le_antisymm (hk.2 (Or.inr (by omega))) (by omega)
      refine ⟨rfl, ?_⟩
      rw [hk.answer_eq, hfill]
      rfl
  · rw [if_neg hcut] at hfill
    rw [if_neg fun hc => hcut ⟨hc.1, hc.2.1⟩]
    have hdecisive : (r.fillAt code h j).isDecisive = true := by rw [hfill]; rfl
    obtain rfl : k = j := Nat.le_antisymm (hk.2 (Or.inl hdecisive)) (by omega)
    refine ⟨rfl, ?_⟩
    rw [hk.answer_eq, hfill]
    rfl

end Resolver

/-- What becomes of a message that starts inside the buffer. The rule for messages that may be cut off
is kept where it starts with the buffer or ends before the last byte. Where it starts further inside
and ends with the last byte it is trusted, and a lookup ends with it although the buffer could grow. -/
theorem inside_pointer_rule_iff (h : Host .gnu) (code : Int32) :
    (∀ (buffer m rest : Bytes) (o : Nat), buffer ≠ [] →
      (h.served code buffer).result = Pointer.inside o → (0 : UInt8) ∉ m →
      (h.served code buffer).buffer.drop o = m ++ 0 :: rest →
      let fill := (h.fill code buffer).1.fill
      (rest = [] ↔ o + m.length + 1 = buffer.length) ∧
      fill = (if o = 0 ∧ rest = [] then .full m else .message m) ∧
      (fill = .ofInside (h.served code buffer).buffer o ↔ o = 0 ∨ rest ≠ [])) ∧
    ∀ (r : Resolver) (j o : Nat) (m rest : Bytes), j < (r.resolve code h).1.calls.length →
      (r.servedAt code h j).result = Pointer.inside o → (0 : UInt8) ∉ m →
      (r.servedAt code h j).buffer.drop o = m ++ 0 :: rest →
      if o = 0 ∧ rest = [] ∧ r.length j < r.max.bytes then
        j + 1 < (r.resolve code h).1.calls.length
      else (r.resolve code h).1.calls.length = j + 1 ∧
        (r.resolve code h).1.answer = .ok (Utf8.decodeLossy m) := by
  refine ⟨fun buffer m rest o hne hret hm hdrop => ?_,
    fun r j o m rest hj hret hm hdrop => Resolver.resolve_of_inside hj hret hm hdrop⟩
  have hlen : (h.served code buffer).buffer.length = buffer.length := Backend.length_serve _ _ hne
  intro fill
  have hfill : fill = (Pointer.inside o).read (h.served code buffer).buffer := by
    change (h.fill code buffer).1.fill = _
    rw [h.fill_of_ne_nil code hne, hret]
    rfl
  rw [hfill, Fill.read_eq_ofInside_iff hm hdrop, Pointer.read_inside hm hdrop, ← hlen]
  exact ⟨Bytes.rest_eq_nil_iff hdrop, rfl, Iff.rfl⟩

def Host.pointing (offset : Nat) : Host .gnu where
  answers := .steady fun _ =>
    { data := some (Utf8.encode "abcdefgh"), target := .within offset }

-- the same text, cut by the same buffer: only from its start is it asked for again
theorem inside_pointer_rule_iff_pointing :
    let r : Resolver := Resolver.sized 8 64
    (r.servedAt 7 (Host.pointing 0) 0).result = Pointer.inside 0 ∧
      1 < (r.resolve 7 (Host.pointing 0)).1.calls.length ∧
      (r.servedAt 7 (Host.pointing 3) 0).result = Pointer.inside 3 ∧
      (r.resolve 7 (Host.pointing 3)).1.calls.length = 1 := by
  intro r
  have hcalls : ∀ offset, 0 < (r.resolve 7 (Host.pointing offset)).1.calls.length := by
    intro offset
    obtain ⟨k, hk⟩ := r.exists_length_calls 7 (Host.pointing offset)
    omega
  have hstart := (inside_pointer_rule_iff (Host.pointing 0) 7).2 r 0 0 (Utf8.encode "abcdefg") []
    (hcalls 0) rfl (by decide) (by decide +kernel)
  have hinside := (inside_pointer_rule_iff (Host.pointing 3) 7).2 r 0 3 (Utf8.encode "defg") []
    (hcalls 3) rfl (by decide) (by decide +kernel)
  rw [if_pos ⟨rfl, rfl, by decide⟩] at hstart
  rw [if_neg (by decide)] at hinside
  exact ⟨rfl, hstart, rfl, hinside.1⟩

/-- The message that the host cut off is trusted, though the buffer could be eight times larger. -/
theorem inside_pointer_trusted_when_cut :
    let buffer : Bytes := List.replicate 8 42
    let h := Host.pointing 3
    (h.served 7 buffer).result = Pointer.inside 3 ∧
      (h.served 7 buffer).buffer.drop 3 = Utf8.encode "defg" ++ [0] ∧
      (h.fill 7 buffer).1.fill = .message (Utf8.encode "defg") ∧
      Fill.ofInside (h.served 7 buffer).buffer 3 = .full (Utf8.encode "defg") ∧
      ((Resolver.sized 8 64).resolve 7 h).1.answer = .ok "defg" ∧
      ((Resolver.sized 8 64).resolve 7 h).1.calls = [⟨7, 8⟩] := by
  decide +kernel

end MessageLookup
