import MessageLookup.Proofs.Calls

/-! Hosts that may change from call to call. A message that a lookup accepts is all of the last
reply's message, unless the last buffer was the largest one allowed and the message did not fit. -/

namespace MessageLookup

open Bytes

namespace Fill

/-- A message that the silent reading trusts is whole. -/
theorem eq_of_ofSilent_write_message {e : Ending} {data : Option Bytes} {n : Nat} (hn : 0 < n)
    {m : Bytes} (h : ofSilent (e.write data (zeroed n)) = message m) :
    m = (data.getD []).upToNul := by
  rw [ofSilent_write e data hn] at h
  split at h
  · exact (Fill.message.inj h).symm
  · split at h <;> cases h

theorem eq_of_ofSilent_write_full {e : Ending} {data : Option Bytes} {n : Nat} (hn : 0 < n)
    {m : Bytes} (h : ofSilent (e.write data (zeroed n)) = full m) :
    n ≤ (data.getD []).upToNul.length + 1 ∧ m = (data.getD []).upToNul.take (n - 1) := by
  rw [ofSilent_write e data hn] at h
  split at h
  · cases h
  · rename_i hfit
    split at h
    · exact ⟨by omega, (Fill.full.inj h).symm⟩
    · cases h

/-- The other reading trusts every NUL, so what it trusts is whole only if a text that was cut has
none. -/
theorem eq_of_ofReported_write_message {e : Ending} {data : Option Bytes} {n : Nat} (hn : 0 < n)
    (he : e = .always → (data.getD []).length < n) {m : Bytes}
    (h : ofReported (e.write data (zeroed n)) = message m) : m = (data.getD []).upToNul := by
  rw [ofReported_write e data hn] at h
  split at h
  · exact (Fill.message.inj h).symm
  · rename_i hlen
    split at h
    · rename_i hal
      have hle := length_upToNul_le (data.getD [])
      exact absurd (Nat.lt_of_le_of_lt hle (he hal)) hlen
    · cases h

end Fill

namespace Backend

/-- A call with `n` bytes that cuts no text behind the reading's back: no pointer leads into the
buffer beyond its start, and a host whose success says that the text fitted does not report it for a
text that it cut and ended with a NUL. -/
def Candid (n : Nat) : (b : Backend) → b.Reply → Prop
  | gnu => fun r => r.target = .null ∨ r.target = .static ∨ r.target.IsBuffer
  | xsi => fun r => r.ending = .always → n ≤ (r.data.getD []).length → (r.reportFor n).status ≠ 0
  | msvcrt => fun _ => True

/-- The reply returns a string of the host's own. -/
def IsStatic : (b : Backend) → b.Reply → Prop
  | gnu => fun r => r.target = .static
  | xsi => fun _ => False
  | msvcrt => fun _ => False

/-- A fill that accounts for the message of a reply: all of it, or with a full buffer all but what
the NUL displaced. -/
def AccountsFor (b : Backend) (r : b.Reply) (n : Nat) : Fill → Prop
  | .message m => m = (b.payload r).upToNul
  | .full m => b ≠ xsi ∧ ¬ b.IsStatic r ∧ n ≤ (b.payload r).upToNul.length + 1 ∧
    m = (b.payload r).upToNul.take (n - 1)
  | .truncated => True
  | .rejected _ => True

theorem accountsFor_ofStatus {b : Backend} (r : b.Reply) (n : Nat) (status : Int32) :
    b.AccountsFor r n (.ofStatus status) := by
  rcases Fill.ofStatus_truncated_or_rejected status with hs | hs <;> rw [hs] <;> trivial

theorem accountsFor_ofSilent {b : Backend} {r : b.Reply} (hx : b ≠ xsi) (hs : ¬ b.IsStatic r)
    {n : Nat} (hn : 0 < n) {e : Ending} {data : Option Bytes} (hdata : data.getD [] = b.payload r) :
    b.AccountsFor r n (.ofSilent (e.write data (zeroed n))) := by
  cases hf : Fill.ofSilent (e.write data (zeroed n)) with
  | message m =>
    have hm := Fill.eq_of_ofSilent_write_message hn hf
    rwa [hdata] at hm
  | full m =>
    have hm := Fill.eq_of_ofSilent_write_full hn hf
    rw [hdata] at hm
    exact ⟨hx, hs, hm⟩
  | truncated => trivial
  | rejected status => trivial

theorem accountsFor_freshFill {b : Backend} {r : b.Reply} {n : Nat} (h : b.Candid n r)
    (errno : Int32) (hn : 0 < n) : b.AccountsFor r n (b.freshFill r errno n) := by
  cases b with
  | gnu =>
    have hbuffer : ∀ t, r.target = t → t ≠ .static → ¬ gnu.IsStatic r :=
      fun t ht hne hs => hne (ht.symm.trans hs)
    rcases h with ht | ht | ht | ht
    · rw [freshFill_null errno ht]
      trivial
    · rw [freshFill_static errno ht]
      rfl
    · rw [freshFill_start errno ht]
      exact accountsFor_ofSilent (by decide) (hbuffer _ ht (by decide)) hn rfl
    · rw [freshFill_within_zero errno ht hn]
      exact accountsFor_ofSilent (by decide) (hbuffer _ ht (by decide)) hn rfl
  | xsi =>
    rw [freshFill_xsi]
    split
    · rename_i hs
      have hal : r.ending = .always → (r.data.getD []).length < n :=
        fun he => Nat.lt_of_not_le fun hle => h he hle hs
      cases hf : Fill.ofReported (r.ending.write r.data (zeroed n)) with
      | message m => exact Fill.eq_of_ofReported_write_message hn hal hf
      | full m => exact absurd hf (Fill.ofReported_ne_full _ _)
      | truncated => trivial
      | rejected status => trivial
    · split <;> exact accountsFor_ofStatus _ _ _
  | msvcrt =>
    have hstatic : ¬ msvcrt.IsStatic r := fun hs => hs
    rw [freshFill_msvcrt]
    split
    · exact accountsFor_ofSilent (by decide) hstatic hn rfl
    · exact accountsFor_ofStatus _ _ _

end Backend

/-- A host that answers with a short message first and with a long one after that. -/
def Host.changing : Host .gnu where
  answers := .scripted
    { common :=
        ⟨{ data := some (Utf8.encode "Bad"), target := .start },
          [{ data := some (Utf8.encode "Unknown error 7"), target := .start }]⟩ }

/-- Whatever a host does from call to call, a message that was accepted is all of the last reply's
message, unless the last buffer was the largest and the message did not fit. -/
theorem resolve_ok_whole_unless_largest {b : Backend} (h : Host b) (code : Int32) (r : Resolver)
    (hcalls : ∀ j < (r.resolve code h).1.calls.length,
      b.Candid (r.length j) (h.answers.replyAt code j))
    (m : String) (hok : (r.resolve code h).1.answer = .ok m) :
    ∃ k, (r.resolve code h).1.calls.length = k + 1 ∧
      (r.resolve code h).1.calls.getLast? = some ⟨code, r.length k⟩ ∧
      let message := (b.payload (h.answers.replyAt code k)).upToNul
      (m = Utf8.decodeLossy message ∨
        r.length k = r.max.bytes ∧ r.max.bytes ≤ message.length ∧
          m = Utf8.decodeLossy (message.take (r.max.bytes - 1))) ∧
      (b = .xsi ∨ b.IsStatic (h.answers.replyAt code k) → m = Utf8.decodeLossy message) := by
  obtain ⟨k, hk, hres⟩ := r.resolve_spec code h
  have hlen : (r.resolve code h).1.calls.length = k + 1 := by
    rw [hres, List.length_map, List.length_range]
  have hfill : b.AccountsFor (h.answers.replyAt code k) (r.length k) (r.fillAt code h k) :=
    Backend.accountsFor_freshFill (hcalls k (by omega)) _ (r.length_pos k)
  have hlast : (r.resolve code h).1.calls.getLast? = some ⟨code, r.length k⟩ := by
    rw [hres, List.range_succ]
    simp
  refine ⟨k, hlen, hlast, ?_⟩
  rw [hres] at hok
  have hends : (r.fillAt code h k).isDecisive = true ∨ r.length k = r.max.bytes := hk.1
  generalize r.fillAt code h k = f at hok hfill hends
  intro message
  cases f with
  | message bytes =>
    have hbytes : bytes = message := hfill
    have hm : m = Utf8.decodeLossy message := by
      rw [← hbytes]
      exact (Except.ok.inj hok).symm
    exact ⟨Or.inl hm, fun _ => hm⟩
  | full bytes =>
    obtain ⟨hx, hs, hle, hbytes⟩ := hfill
    -- below the maximum a full buffer would have been followed by a larger one
    have hmax : r.length k = r.max.bytes := hends.resolve_left Bool.false_ne_true
    have hm : m = Utf8.decodeLossy (message.take (r.max.bytes - 1)) := by
      rw [← hmax, ← hbytes]
      exact (Except.ok.inj hok).symm
    refine ⟨?_, fun hb => hb.elim (absurd · hx) (absurd · hs)⟩
    by_cases hfit : r.max.bytes ≤ message.length
    · exact Or.inr ⟨hmax, hfit, hm⟩
    · rw [List.take_of_length_le (by omega)] at hm
      exact Or.inl hm
  | truncated => cases hok
  | rejected status => cases hok

-- the first message is whole but fills its buffer, the second is cut and accepted
theorem resolve_ok_whole_unless_largest_changing :
    (∀ j < ((Resolver.sized 4 8).resolve 7 Host.changing).1.calls.length,
        Backend.gnu.Candid ((Resolver.sized 4 8).length j) (Host.changing.answers.replyAt 7 j)) ∧
      ((Resolver.sized 4 8).resolve 7 Host.changing).1.answer = .ok "Unknown" ∧
      ((Resolver.sized 4 8).resolve 7 Host.changing).1.calls.getLast? = some ⟨7, 8⟩ ∧
      8 ≤ (Backend.gnu.payload (Host.changing.answers.replyAt 7 1)).upToNul.length := by
  have hlen : ((Resolver.sized 4 8).resolve 7 Host.changing).1.calls.length = 2 := by decide +kernel
  have hcalls : ∀ j < ((Resolver.sized 4 8).resolve 7 Host.changing).1.calls.length,
      Backend.gnu.Candid ((Resolver.sized 4 8).length j) (Host.changing.answers.replyAt 7 j) := by
    rw [hlen]
    rintro (_ | _ | j) hj
    · exact Or.inr (Or.inr (Or.inl rfl))
    · exact Or.inr (Or.inr (Or.inl rfl))
    · omega
  have hok : ((Resolver.sized 4 8).resolve 7 Host.changing).1.answer = .ok "Unknown" := by
    decide +kernel
  obtain ⟨k, hk, hlast, hwhole, -⟩ :=
    resolve_ok_whole_unless_largest Host.changing 7 (Resolver.sized 4 8) hcalls "Unknown" hok
  obtain rfl : k = 1 := by omega
  refine ⟨hcalls, hok, hlast, ?_⟩
  rcases hwhole with hm | ⟨-, hle, -⟩
  · exact absurd hm (by decide)
  · exact hle

end MessageLookup
