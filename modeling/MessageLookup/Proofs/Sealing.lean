import MessageLookup.Proofs.Resumption
import MessageLookup.Proofs.Scratch

/-! What a buffer held before does not show. Beyond the bytes that a reply writes the old ones stay,
so a reading is the same on any buffer only if the first NUL is among those written, or nothing old is
left. A reply with data that is ended by a NUL wherever there is room sees to that (`Backend.Seals`);
a refusal reads nothing of the buffer. -/

namespace MessageLookup

open Bytes

namespace Ending

variable {e : Ending}

/-- Text that is ended by a NUL wherever there is room has a NUL or takes every byte. -/
theorem nul_mem_written_or_full (he : e ≠ .never) (data : Bytes) (n : Nat) :
    (0 : UInt8) ∈ e.written data n ∨ (e.written data n).length = n := by
  cases e with
  | always =>
    have hmem : (0 : UInt8) ∈ data.take (n - 1) ++ [0] := by simp
    exact Or.inl hmem
  | room =>
    change _ ∈ (data ++ [0]).take n ∨ ((data ++ [0]).take n).length = n
    by_cases hfit : data.length < n
    · rw [List.take_of_length_le (by rw [List.length_append, List.length_singleton]; omega)]
      exact Or.inl (by simp)
    · right
      rw [List.length_take, List.length_append, List.length_singleton]
      omega
  | never => exact absurd rfl he

theorem upToNul_write_of_ne_never (he : e ≠ .never) (data buffer : Bytes) :
    upToNul (e.write (some data) buffer) = data.upToNul.take (e.kept buffer.length) := by
  rw [← upToNul_written, write, overwrite]
  rcases nul_mem_written_or_full he data buffer.length with hmem | hlen
  · exact upToNul_append_of_mem hmem _
  · rw [hlen, List.drop_length, List.append_nil]

theorem write_congr (he : e ≠ .never) {data : Option Bytes} (hdata : data ≠ none)
    {buffer buffer' : Bytes} (hne : buffer ≠ []) (hne' : buffer' ≠ [])
    (hlen : buffer'.length = buffer.length) :
    (e.write data buffer').length = (e.write data buffer).length ∧
      upToNul (e.write data buffer') = upToNul (e.write data buffer) := by
  obtain ⟨d, rfl⟩ := Option.ne_none_iff_exists'.1 hdata
  rw [e.length_write _ hne, e.length_write _ hne', upToNul_write_of_ne_never he,
    upToNul_write_of_ne_never he, hlen]
  exact ⟨rfl, rfl⟩

end Ending

namespace Backend

/-- A reply with data that is ended by a NUL wherever there is room, and no pointer further inside. -/
def Seals : (b : Backend) → b.Reply → Prop
  | gnu => fun r => r.data ≠ none ∧ r.ending ≠ .never ∧
      (r.target = .null ∨ r.target = .static ∨ r.target.IsBuffer)
  | xsi => fun r => r.data ≠ none ∧ r.ending ≠ .never
  | msvcrt => fun r => r.data ≠ none ∧ r.ending ≠ .never

variable {b : Backend} {r : b.Reply} {errno : Int32} {buffer buffer' : Bytes}

theorem Seals.fillOn_eq (h : b.Seals r) (hne : buffer ≠ []) (hne' : buffer' ≠ [])
    (hlen : buffer'.length = buffer.length) : b.fillOn r errno buffer' = b.fillOn r errno buffer := by
  cases b with
  | gnu =>
    obtain ⟨hdata, he, htarget⟩ := h
    obtain ⟨hlength, hnul⟩ := Ending.write_congr he hdata hne hne' hlen
    rcases htarget with ht | ht | ht | ht
    · rw [fillOn_null _ _ ht, fillOn_null _ _ ht]
    · rw [fillOn_static _ _ ht, fillOn_static _ _ ht]
    · rw [fillOn_start _ _ ht, fillOn_start _ _ ht]
      exact Fill.ofSilent_congr hlength hnul
    · rw [fillOn_within_zero _ _ ht, fillOn_within_zero _ _ ht]
      refine Fill.ofSilent_congr (by rw [List.length_set, List.length_set, hlength]) ?_
      rw [← r.ending.length_write r.data hne, ← r.ending.length_write r.data hne',
        upToNul_set_last, upToNul_set_last, hlength, hnul]
  | xsi =>
    obtain ⟨hlength, hnul⟩ := Ending.write_congr h.2 h.1 hne hne' hlen
    rw [fillOn_xsi, fillOn_xsi, hlen, Fill.ofReported_congr hlength hnul]
  | msvcrt =>
    obtain ⟨hlength, hnul⟩ := Ending.write_congr h.2 h.1 hne hne' hlen
    rw [fillOn_msvcrt, fillOn_msvcrt, hlen, Fill.ofSilent_congr hlength hnul]

/-- What a call returns does not come from the buffer. -/
theorem result_serve_congr (b : Backend) (r : b.Reply) (errno : Int32) {buffer buffer' : Bytes}
    (hlen : buffer'.length = buffer.length) :
    (b.serve r errno buffer').result = (b.serve r errno buffer).result := by
  cases b with
  | gnu =>
    change (PointerReply.serve r buffer').result = (PointerReply.serve r buffer).result
    unfold PointerReply.serve
    split
    · rfl
    · rfl
    · rfl
    · rw [hlen]
  | xsi =>
    change (StatusReply.serve r errno buffer').result = (StatusReply.serve r errno buffer).result
    rw [StatusReply.serve, StatusReply.serve, hlen]
  | msvcrt =>
    change (StatusReply.serve r errno buffer').result = (StatusReply.serve r errno buffer).result
    rw [StatusReply.serve, StatusReply.serve, hlen]

theorem fillOn_rejected {s : Int32} (h : b.fillOn r errno buffer = .rejected s)
    (hlen : buffer'.length = buffer.length) : b.fillOn r errno buffer' = .rejected s := by
  rw [fillOn, result_serve_congr b r errno hlen]
  exact interpret_eq_rejected h _

end Backend

/-- A fill says the same on every buffer of one length, if its reply ends its data by a NUL wherever
there is room, or is a refusal. The error number before the call does not matter either where a call
that returns -1 sets it. -/
theorem fill_forgets_buffer {b : Backend} (h h' : Host b) (code : Int32) {buffer buffer' : Bytes}
    (hlen : buffer'.length = buffer.length)
    (hreply : h'.answers.reply code = h.answers.reply code)
    (herrno : h'.errno = h.errno ∨ b.SetsErrno buffer.length (h.answers.reply code))
    (hseals : b.Seals (h.answers.reply code) ∨ ∃ s, (h.fill code buffer).1.fill = .rejected s) :
    (h'.fill code buffer').1.fill = (h.fill code buffer).1.fill ∧
      (h'.fill code buffer').1.calls = (h.fill code buffer).1.calls := by
  by_cases hne : buffer = []
  · have hne' : buffer' = [] := List.eq_nil_of_length_eq_zero (by rw [hlen, hne, List.length_nil])
    rw [hne, hne']
    exact ⟨rfl, rfl⟩
  · have hne' : buffer' ≠ [] :=
      List.ne_nil_of_length_pos (hlen.symm ▸ List.length_pos_iff.2 hne)
    have hsame : b.fillOn (h.answers.reply code) h'.errno buffer' =
        b.fillOn (h.answers.reply code) h.errno buffer' := by
      rcases herrno with he | hset
      · rw [he]
      · rw [← hlen] at hset
        exact hset.fillOn_eq _ _
    rw [h.fill_eq_fillOn code hne] at hseals ⊢
    rw [h'.fill_eq_fillOn code hne', hreply, hsame]
    constructor
    · rcases hseals with hs | ⟨s, hs⟩
      · exact hs.fillOn_eq hne hne' hlen
      · rw [hs, Backend.fillOn_rejected hs hlen]
    · rw [h.fill_of_ne_nil code hne, h'.fill_of_ne_nil code hne', hlen]

def Host.roomy : Host .xsi where
  answers := .steady fun _ =>
    { data := some (Utf8.encode "ab"), ending := .room, report := ⟨0, none⟩ }

-- two buffers of old bytes, the one behind a call that failed
theorem fill_forgets_buffer_roomy :
    let h := Host.roomy
    let h' := { Host.roomy with errno := 5 }
    let reply := h.answers.reply 7
    h'.answers.reply 7 = reply ∧ Backend.xsi.SetsErrno 4 reply ∧ Backend.xsi.Seals reply ∧
      (h.fill 7 [0, 0, 0, 0]).1.fill = .message (Utf8.encode "ab") ∧
      (h'.fill 7 [42, 42, 42, 42]).1.fill = .message (Utf8.encode "ab") := by
  intro h h' reply
  have hset : Backend.xsi.SetsErrno 4 reply := by decide
  have hseals : Backend.xsi.Seals reply := ⟨by decide, by decide⟩
  have hfirst : (h.fill 7 [0, 0, 0, 0]).1.fill = .message (Utf8.encode "ab") := by decide
  obtain ⟨hfill, -⟩ := @fill_forgets_buffer .xsi h h' 7 [0, 0, 0, 0] [42, 42, 42, 42] rfl rfl
    (Or.inr hset) (Or.inl hseals)
  exact ⟨rfl, hset, hseals, hfirst, hfill.trans hfirst⟩

end MessageLookup
