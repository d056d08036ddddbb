import MessageLookup.Proofs.Failures

/-! One buffer for several calls. Filling it asks the host once, reads what the call left in it and
writes nothing itself, so the next call finds the buffer as this one left it. What a fill may say of
any buffer is one contract for the three flavours (`Backend.Reads`). Where the message starts with the
buffer they agree on it, and differ only in whether a NUL in the last byte is trusted. -/

namespace MessageLookup

/-- The message that a fill carries. -/
def Fill.bytes? : Fill → Option Bytes
  | message m => some m
  | full m => some m
  | truncated => none
  | rejected _ => none

/-- The longest bytes without a NUL that a buffer starts with. -/
structure Bytes.IsMessageOf (m buffer : Bytes) : Prop where
  starts : m <+: buffer
  nul_not_mem : (0 : UInt8) ∉ m
  longest : ∀ p : Bytes, p <+: buffer → (0 : UInt8) ∉ p → p.length ≤ m.length

theorem Bytes.isMessageOf_append_nul {m : Bytes} (hm : (0 : UInt8) ∉ m) (rest : Bytes) :
    m.IsMessageOf (m ++ 0 :: rest) := by
  refine ⟨List.prefix_append m _, hm, fun p hp hnul => ?_⟩
  -- longer ones would take in the NUL
  by_contra hlt
  have hstart : m ++ [0] <+: m ++ 0 :: rest := ⟨rest, by simp⟩
  have hle : (m ++ [0]).length ≤ p.length := by
    rw [List.length_append, List.length_singleton]
    omega
  have hmem : (0 : UInt8) ∈ m ++ [0] := by simp
  exact hnul ((List.prefix_of_prefix_length_le hstart hp hle).subset hmem)

namespace Backend

/-- The return says that there is a message, which starts with the buffer. -/
def InBuffer : (b : Backend) → b.Return → Prop
  | gnu => fun p => p = .inside 0
  | xsi => fun r => r.status = 0
  | msvcrt => fun r => r.status = 0

variable {b : Backend} {ret : b.Return} {buffer : Bytes}

theorem interpret_of_inBuffer (h : b.InBuffer ret) (buffer : Bytes) :
    b.interpret buffer ret = if b = xsi then .ofReported buffer else .ofSilent buffer := by
  cases b with
  | gnu =>
    have h : ret = Pointer.inside 0 := h
    rw [h, if_neg (by decide)]
    rfl
  | xsi => exact if_pos h
  | msvcrt => exact if_pos h

/-- A status other than success is all that is read. -/
theorem interpret_of_statusOf {s : Int32} (h : ¬ b.InBuffer ret) (hs : b.statusOf ret = some s)
    (buffer : Bytes) : b.interpret buffer ret = .ofStatus s := by
  cases b with
  | gnu => cases hs
  | xsi =>
    obtain rfl := Option.some.inj hs
    refine (if_neg h).trans ?_
    split <;> rfl
  | msvcrt =>
    obtain rfl := Option.some.inj hs
    exact if_neg h

/-- Any other return says nothing of the start of the buffer. -/
theorem interpret_of_not_inBuffer (h : ¬ b.InBuffer ret) (buffer : Bytes) :
    (∃ text : Bytes, b.interpret buffer ret = .message text.upToNul) ∨
      b.interpret buffer ret = .truncated ∨ ∃ s, b.interpret buffer ret = .rejected s := by
  cases b with
  | gnu =>
    rcases ret with - | (- | k) | text
    · exact Or.inr (Or.inr ⟨_, rfl⟩)
    · exact absurd rfl h
    · exact Or.inl ⟨_, rfl⟩
    · exact Or.inl ⟨_, rfl⟩
  | xsi =>
    rw [interpret_of_statusOf h rfl]
    exact Or.inr ((Fill.ofStatus_truncated_or_rejected _).imp_right fun hs => ⟨_, hs⟩)
  | msvcrt =>
    rw [interpret_of_statusOf h rfl]
    exact Or.inr ((Fill.ofStatus_truncated_or_rejected _).imp_right fun hs => ⟨_, hs⟩)

theorem interpret_ne_rejected (h : b.InBuffer ret) (buffer : Bytes) (s : Int32) :
    b.interpret buffer ret ≠ .rejected s := by
  rw [interpret_of_inBuffer h]
  split
  · exact Fill.ofReported_ne_rejected buffer s
  · exact Fill.ofSilent_ne_rejected buffer s

/-- A refusal reads nothing of the buffer. -/
theorem interpret_eq_rejected {s : Int32} (h : b.interpret buffer ret = .rejected s)
    (buffer' : Bytes) : b.interpret buffer' ret = .rejected s := by
  have hin : ¬ b.InBuffer ret := fun hin => interpret_ne_rejected hin buffer s h
  cases b with
  | gnu =>
    rcases ret with - | (- | k) | text
    · exact h
    · exact absurd rfl hin
    · cases h
    · cases h
  | xsi =>
    rw [interpret_of_statusOf hin rfl] at h ⊢
    exact h
  | msvcrt =>
    rw [interpret_of_statusOf hin rfl] at h ⊢
    exact h

/-- A buffer is full when the only NUL is its last byte, and the host may have put it there. -/
theorem interpret_eq_full_iff {m : Bytes} :
    b.interpret buffer ret = .full m ↔
      b ≠ xsi ∧ b.InBuffer ret ∧ (0 : UInt8) ∉ m ∧ buffer = m ++ [0] := by
  constructor
  · intro h
    by_cases hin : b.InBuffer ret
    · rw [interpret_of_inBuffer hin] at h
      split at h
      · exact absurd h (Fill.ofReported_ne_full buffer m)
      · rename_i hx
        by_cases hmem : (0 : UInt8) ∈ buffer
        · obtain ⟨m', rest, rfl, hm'⟩ := List.eq_append_cons_of_mem hmem
          rw [Fill.ofSilent_of_nul hm'] at h
          split at h
          · rename_i hrest
            obtain rfl := Fill.full.inj h
            exact ⟨hx, hin, hm', by rw [hrest]⟩
          · cases h
        · rw [Fill.ofSilent_of_not_mem hmem] at h
          cases h
    · rcases interpret_of_not_inBuffer hin buffer with ⟨_, hf⟩ | hf | ⟨_, hf⟩ <;>
        rw [hf] at h <;> cases h
  · rintro ⟨hx, hin, hm, rfl⟩
    rw [interpret_of_inBuffer hin, if_neg hx, Fill.ofSilent_of_nul hm, if_pos rfl]

theorem interpret_eq_truncated_iff (h : b.InBuffer ret) :
    b.interpret buffer ret = .truncated ↔ (0 : UInt8) ∉ buffer := by
  rw [interpret_of_inBuffer h]
  split
  · exact Fill.ofReported_eq_truncated_iff
  · exact Fill.ofSilent_eq_truncated_iff

theorem bytes?_interpret_of_nul (h : b.InBuffer ret) {m : Bytes} (hm : (0 : UInt8) ∉ m)
    (rest : Bytes) : (b.interpret (m ++ 0 :: rest) ret).bytes? = some m := by
  rw [interpret_of_inBuffer h]
  split
  · rw [Fill.ofReported_of_nul hm]
    rfl
  · rw [Fill.ofSilent_of_nul hm]
    split <;> rfl

theorem nul_not_mem_interpret {m : Bytes} (h : (b.interpret buffer ret).bytes? = some m) :
    (0 : UInt8) ∉ m := by
  by_cases hin : b.InBuffer ret
  · by_cases hmem : (0 : UInt8) ∈ buffer
    · obtain ⟨m', rest, rfl, hm'⟩ := List.eq_append_cons_of_mem hmem
      rw [bytes?_interpret_of_nul hin hm'] at h
      obtain rfl := Option.some.inj h
      exact hm'
    · rw [(interpret_eq_truncated_iff hin).2 hmem] at h
      cases h
  · rcases interpret_of_not_inBuffer hin buffer with ⟨text, hf⟩ | hf | ⟨_, hf⟩ <;> rw [hf] at h
    · obtain rfl := Option.some.inj h
      exact Bytes.nul_not_mem_upToNul text
    · cases h
    · cases h

/-- What a fill may say of the buffer after a call, given what the call returned. -/
structure Reads (b : Backend) (buffer : Bytes) (ret : b.Return) (f : Fill) : Prop where
  nul_not_mem : ∀ m, f = .message m ∨ f = .full m → (0 : UInt8) ∉ m
  full : ∀ m, f = .full m → b ≠ .xsi ∧ m.length + 1 = buffer.length ∧ m = buffer.dropLast
  rejected : ∀ s, f = .rejected s →
    s ≠ Errno.outOfRange ∧ (b = .gnu → s = Errno.invalidArgument)
  truncated_iff : b.InBuffer ret → (f = .truncated ↔ (0 : UInt8) ∉ buffer)
  message : b.InBuffer ret → (0 : UInt8) ∈ buffer → ∃ m, f.bytes? = some m ∧ m.IsMessageOf buffer

theorem reads_interpret (b : Backend) (buffer : Bytes) (ret : b.Return) :
    b.Reads buffer ret (b.interpret buffer ret) where
  nul_not_mem m hf := by
    have hbytes : (b.interpret buffer ret).bytes? = some m := by
      rcases hf with hf | hf <;> rw [hf] <;> rfl
    exact nul_not_mem_interpret hbytes
  full m hf := by
    obtain ⟨hx, -, -, rfl⟩ := interpret_eq_full_iff.1 hf
    exact ⟨hx, by simp, by simp⟩
  rejected s hf := by
    obtain ⟨hrange, hstatus⟩ := interpret_rejected hf
    refine ⟨hrange, ?_⟩
    rintro rfl
    rcases hstatus with hs | hs
    · cases hs
    · exact hs.2
  truncated_iff hin := interpret_eq_truncated_iff hin
  message hin hmem := by
    obtain ⟨m, rest, rfl, hm⟩ := List.eq_append_cons_of_mem hmem
    exact ⟨m, bytes?_interpret_of_nul hin hm rest, Bytes.isMessageOf_append_nul hm rest⟩

/-- The readings of a buffer differ only in the trust in a NUL that is its last byte. -/
theorem interpret_xsi_vs_silent (buffer : Bytes) {x : xsi.Return} (hx : xsi.InBuffer x)
    (hb : b ≠ xsi) (hret : b.InBuffer ret) :
    (b.interpret buffer ret).bytes? = (xsi.interpret buffer x).bytes? ∧
      (b.interpret buffer ret = xsi.interpret buffer x ∨
        ∃ m, b.interpret buffer ret = .full m ∧ xsi.interpret buffer x = .message m) := by
  rw [interpret_of_inBuffer hx, interpret_of_inBuffer hret, if_pos rfl, if_neg hb]
  by_cases hmem : (0 : UInt8) ∈ buffer
  · obtain ⟨m, rest, rfl, hm⟩ := List.eq_append_cons_of_mem hmem
    rw [Fill.ofReported_of_nul hm, Fill.ofSilent_of_nul hm]
    split
    · exact ⟨rfl, Or.inr ⟨m, rfl, rfl⟩⟩
    · exact ⟨rfl, Or.inl rfl⟩
  · rw [Fill.ofReported_of_not_mem hmem, Fill.ofSilent_of_not_mem hmem]
    exact ⟨rfl, Or.inl rfl⟩

end Backend

namespace Host

variable {b : Backend} (h : Host b) (code : Int32) (codes : List Int32) (buffer : Bytes)

/-- The host and the buffer after fills for the codes in turn. -/
def refilled : Host b × Bytes :=
  codes.foldl (fun s code => ((s.1.fill code s.2).2, (s.1.fill code s.2).1.buffer)) (h, buffer)

theorem refilled_cons :
    h.refilled (code :: codes) buffer =
      (h.fill code buffer).2.refilled codes (h.fill code buffer).1.buffer := rfl

theorem refilled_concat :
    h.refilled (codes ++ [code]) buffer =
      (((h.refilled codes buffer).1.fill code (h.refilled codes buffer).2).2,
        ((h.refilled codes buffer).1.fill code (h.refilled codes buffer).2).1.buffer) := by
  rw [refilled, List.foldl_append]
  rfl

theorem length_fillEach : (h.fillEach codes buffer).1.length = codes.length := by
  induction codes generalizing h buffer with
  | nil => rfl
  | cons code codes ih => exact congrArg (· + 1) (ih _ _)

theorem fillEach_host : (h.fillEach codes buffer).2 = (h.refilled codes buffer).1 := by
  induction codes generalizing h buffer with
  | nil => rfl
  | cons code codes ih => exact ih _ _

/-- Fill `i` of several is the one on the host and the buffer that the fills before it left. -/
theorem getElem?_fillEach (i : Nat) :
    (h.fillEach codes buffer).1[i]? = codes[i]?.map fun code =>
      ((h.refilled (codes.take i) buffer).1.fill code (h.refilled (codes.take i) buffer).2).1 := by
  induction codes generalizing h buffer i with
  | nil => rfl
  | cons code codes ih =>
    cases i with
    | zero => rfl
    | succ i =>
      rw [List.take_succ_cons, refilled_cons, List.getElem?_cons_succ, ← ih]
      rfl

theorem length_buffer_fill : (h.fill code buffer).1.buffer.length = buffer.length := by
  by_cases hne : buffer = []
  · rw [hne]
    rfl
  · rw [h.fill_of_ne_nil code hne]
    exact Backend.length_serve _ _ hne

theorem length_refilled : (h.refilled codes buffer).2.length = buffer.length := by
  induction codes generalizing h buffer with
  | nil => rfl
  | cons code codes ih => rw [refilled_cons, ih, length_buffer_fill]

theorem refilled_nil : h.refilled codes [] = (h, []) := by
  induction codes with
  | nil => rfl
  | cons code codes ih => exact ih

end Host

/-- Fills on one buffer keep its length and leave all writing to the host. An empty buffer asks the
host for nothing. Any other one asks it once for each code, and the fill is a reading of what the call
left there. -/
theorem fillEach_contract {b : Backend} (h : Host b) (codes : List Int32) (buffer : Bytes) :
    let fills := (h.fillEach codes buffer).1
    let before := fun i => h.refilled (codes.take i) buffer
    (fills.length = codes.length ∧ before 0 = (h, buffer) ∧
      (h.fillEach codes buffer).2 = (before codes.length).1) ∧
    (buffer = [] → (h.fillEach codes buffer).2 = h ∧
      ∀ f ∈ fills, f.fill = .truncated ∧ f.calls = [] ∧ f.buffer = []) ∧
    (buffer ≠ [] → ∀ i code, codes[i]? = some code →
      let served := (before i).1.served code (before i).2
      before (i + 1) = ((before i).1.after code served.result, served.buffer) ∧
      ∃ f, fills[i]? = some f ∧ f.calls = [⟨code, buffer.length⟩] ∧
        f.buffer = served.buffer ∧ f.buffer.length = buffer.length ∧
        f.fill = b.interpret served.buffer served.result ∧
        b.Reads served.buffer served.result f.fill) ∧
    ∀ (after : Bytes) (x : Backend.xsi.Return) (b' : Backend) (ret : b'.Return),
      Backend.xsi.InBuffer x → b' ≠ .xsi → b'.InBuffer ret →
      (b'.interpret after ret).bytes? = (Backend.xsi.interpret after x).bytes? ∧
      (b'.interpret after ret = Backend.xsi.interpret after x ∨ ∃ m,
        b'.interpret after ret = .full m ∧ Backend.xsi.interpret after x = .message m) ∧
      ∀ m, b'.interpret after ret = .full m ↔ (0 : UInt8) ∉ m ∧ after = m ++ [0] := by
  intro fills before
  refine ⟨⟨h.length_fillEach codes buffer, rfl, ?_⟩, ?_, ?_, ?_⟩
  · rw [h.fillEach_host]
    simp only [before, List.take_length]
  · rintro rfl
    refine ⟨by rw [h.fillEach_host, h.refilled_nil], fun f hf => ?_⟩
    obtain ⟨i, hi⟩ := List.mem_iff_getElem?.1 hf
    rw [h.getElem?_fillEach, h.refilled_nil] at hi
    obtain ⟨code, -, rfl⟩ := Option.map_eq_some_iff.1 hi
    exact ⟨rfl, rfl, rfl⟩
  · intro hne i code hi served
    have hlen : (before i).2.length = buffer.length := h.length_refilled _ buffer
    have hne' : (before i).2 ≠ [] :=
      List.ne_nil_of_length_pos (hlen.symm ▸ List.length_pos_iff.2 hne)
    have hfill := (before i).1.fill_of_ne_nil code hne'
    refine ⟨?_, ((before i).1.fill code (before i).2).1, by rw [h.getElem?_fillEach, hi]; rfl, ?_⟩
    · have htake : codes.take (i + 1) = codes.take i ++ [code] := by
        rw [List.take_add_one, hi]
        rfl
      simp only [before, htake, h.refilled_concat]
      exact Prod.ext (congrArg Prod.snd hfill) (congrArg (·.1.buffer) hfill)
    · have hkept := (before i).1.length_buffer_fill code (before i).2
      rw [hfill, hlen] at hkept
      rw [hfill, hlen]
      exact ⟨rfl, rfl, hkept, rfl, b.reads_interpret _ _⟩
  · intro after x b' ret hx hb hret
    obtain ⟨hbytes, hsame⟩ := Backend.interpret_xsi_vs_silent after hx hb hret
    refine ⟨hbytes, hsame, fun m => ?_⟩
    rw [Backend.interpret_eq_full_iff]
    exact ⟨fun hm => hm.2.2, fun hm => ⟨hb, hret, hm⟩⟩

/-- A host that ends its first text with a NUL and writes over the start of it after that. -/
def Host.overwriting : Host .msvcrt where
  answers := .scripted
    { common :=
        ⟨{ data := some (Utf8.encode "abcdef"), report := ⟨0, none⟩ },
          [{ data := some (Utf8.encode "xy"), ending := .never, report := ⟨0, none⟩ }]⟩ }

-- the second message takes in what the first call left
theorem fillEach_contract_overwriting :
    let buffer : Bytes := List.replicate 8 42
    buffer ≠ [] ∧ ([1, 2] : List Int32)[1]? = some 2 ∧
      ∃ f, (Host.overwriting.fillEach [1, 2] buffer).1[1]? = some f ∧ f.calls = [⟨2, 8⟩] ∧
        f.fill = .message (Utf8.encode "xycdef") ∧
        (Utf8.encode "xycdef").IsMessageOf (Utf8.encode "xycdef" ++ [0, 42]) := by
  intro buffer
  have hne : buffer ≠ [] := by decide
  obtain ⟨-, -, hsteps, -⟩ := fillEach_contract Host.overwriting [1, 2] buffer
  obtain ⟨-, f, hf, hcalls, -, -, hfill, hreads⟩ := hsteps hne 1 2 rfl
  have hmessage : f.fill = .message (Utf8.encode "xycdef") := hfill.trans (by decide)
  refine ⟨hne, rfl, f, hf, hcalls, hmessage, ?_⟩
  obtain ⟨m, hm, hlongest⟩ := hreads.message rfl (by decide)
  rw [hmessage] at hm
  obtain rfl := Option.some.inj hm
  exact hlongest

end MessageLookup
