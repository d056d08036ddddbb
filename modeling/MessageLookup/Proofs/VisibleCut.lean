import MessageLookup.Host.Glibc
import MessageLookup.Proofs.Calls

/-! Hosts that let it be seen when a message does not fit, by their status or because a message that
was cut has no NUL. A lookup on one succeeds exactly if the largest buffer has room for the message
and its NUL; only the number of calls depends on the flavour. -/

namespace MessageLookup

open Bytes

namespace Fill

/-- The fill of `n` bytes by a host that lets a cut be seen. The reading trusts the message if the
buffer is longer than it by more than `slack` bytes. -/
def cutVisibly (m : Bytes) (slack n : Nat) : Fill :=
  if m.length + slack < n then message m
  else if m.length < n then full m
  else truncated

theorem cutVisibly_of_le {m : Bytes} {n : Nat} (slack : Nat) (h : n ≤ m.length) :
    cutVisibly m slack n = truncated := by
  unfold cutVisibly
  rw [if_neg (by omega), if_neg (by omega)]

theorem cutVisibly_not_decisive {m : Bytes} {slack n : Nat} (h : ¬ m.length + slack < n) :
    (cutVisibly m slack n).isDecisive = false := by
  unfold cutVisibly
  rw [if_neg h]
  split <;> rfl

theorem conclude_cutVisibly (m : Bytes) (slack : Nat) (code : Int32) (c : Capacity) :
    (cutVisibly m slack c.bytes).conclude code c =
      if m.length < c.bytes then .ok (Utf8.decodeLossy m)
      else .error (.bufferTooSmall code c.bytes) := by
  unfold cutVisibly
  by_cases hlen : m.length < c.bytes
  · rw [if_pos hlen, if_pos hlen]
    split <;> rfl
  · rw [if_neg (by omega), if_neg hlen, if_neg hlen]
    rfl

theorem ofStatus_outOfRange : ofStatus Errno.outOfRange = truncated := if_pos rfl

/-- Without a NUL in the text, an ending that adds none to a cut text, or a buffer that is large
enough, shows whether the text was cut. -/
theorem ofSilent_write_uncut {e : Ending} {data : Option Bytes} {n : Nat} (hn : 0 < n)
    (hnul : (0 : UInt8) ∉ data.getD []) (he : e ≠ .always ∨ (data.getD []).length < n) :
    ofSilent (e.write data (zeroed n)) = cutVisibly (data.getD []) 1 n := by
  rw [ofSilent_write e data hn, upToNul_eq_self hnul]
  unfold cutVisibly
  by_cases hfit : (data.getD []).length + 1 < n
  · rw [if_pos hfit, if_pos hfit]
  · rw [if_neg hfit, if_neg hfit]
    by_cases hlen : (data.getD []).length < n
    · rw [if_pos (Or.inr hlen), if_pos hlen, List.take_of_length_le (by omega)]
    · rw [if_neg hlen, if_neg (not_or.2 ⟨he.resolve_right hlen, hlen⟩)]

theorem ofReported_write_uncut {e : Ending} {data : Option Bytes} {n : Nat} (hn : 0 < n)
    (hnul : (0 : UInt8) ∉ data.getD []) (he : e ≠ .always ∨ (data.getD []).length < n) :
    ofReported (e.write data (zeroed n)) = cutVisibly (data.getD []) 0 n := by
  rw [ofReported_write e data hn, upToNul_eq_self hnul]
  by_cases hlen : (data.getD []).length < n
  · rw [if_pos hlen]
    exact (if_pos hlen).symm
  · rw [if_neg hlen, if_neg (he.resolve_right hlen), cutVisibly_of_le _ (by omega)]

end Fill

/-- A text with room gets status 0. One without room is reported, or is written without a NUL. -/
def StatusReply.ShowsCut (text : Bytes) (n : Nat) (overflow : StatusReport → Prop)
    (r : StatusReply) : Prop :=
  r.data.getD [] = text ∧
    (text.length < n → (r.reportFor n).status = 0) ∧
    (n ≤ text.length → overflow (r.reportFor n) ∨
      r.ending ≠ .always ∧ (r.reportFor n).status = 0)

namespace Backend

/-- How much longer than a message without its NUL a buffer must be to be trusted. -/
def slack : Backend → Nat
  | gnu => 1
  | xsi => 0
  | msvcrt => 1

/-- A status that says that there is no room. -/
def ReportsOverflow : Backend → StatusReport → Prop
  | gnu => fun _ => False
  | xsi => fun s => s.status = Errno.outOfRange ∨ s.status = -1 ∧ s.errno = some Errno.outOfRange
  | msvcrt => fun s => s.status = Errno.outOfRange

/-- A call with `n` bytes that lets a cut of the text be seen: it reports that there is no room, or
it succeeds but adds no NUL to a text that was cut. -/
def ShowsCut (text : Bytes) (n : Nat) : (b : Backend) → b.Reply → Prop
  -- a reply that points into the buffer puts a NUL into its last byte, so no cut shows
  | gnu => fun r => r.data.getD [] = text ∧ r.ending ≠ .always ∧ r.target = .start
  | xsi => StatusReply.ShowsCut text n xsi.ReportsOverflow
  | msvcrt => StatusReply.ShowsCut text n msvcrt.ReportsOverflow

section Overflow

variable {r : StatusReply} {n : Nat} (errno : Int32)

theorem freshFill_xsi_of_reportsOverflow (h : xsi.ReportsOverflow (r.reportFor n)) :
    xsi.freshFill r errno n = .truncated := by
  rw [freshFill_xsi]
  rcases h with hs | ⟨hs, he⟩
  · rw [hs, if_neg (by decide), if_neg (by decide), Fill.ofStatus_outOfRange]
  · rw [hs, he, if_neg (by decide), if_pos rfl]
    exact Fill.ofStatus_outOfRange

theorem freshFill_msvcrt_of_reportsOverflow (h : msvcrt.ReportsOverflow (r.reportFor n)) :
    msvcrt.freshFill r errno n = .truncated := by
  have hs : (r.reportFor n).status = Errno.outOfRange := h
  rw [freshFill_msvcrt, hs, if_neg (by decide), Fill.ofStatus_outOfRange]

end Overflow

theorem freshFill_of_showsCut {b : Backend} {text : Bytes} (hnul : (0 : UInt8) ∉ text) {n : Nat}
    {r : b.Reply} (h : b.ShowsCut text n r) (errno : Int32) (hn : 0 < n) :
    b.freshFill r errno n = .cutVisibly text b.slack n := by
  cases b with
  | gnu =>
    obtain ⟨rfl, he, ht⟩ := h
    rw [freshFill_start errno ht]
    exact Fill.ofSilent_write_uncut hn hnul (Or.inl he)
  | xsi =>
    obtain ⟨rfl, hfit, hcut⟩ := h
    by_cases hlen : (r.data.getD []).length < n
    · rw [freshFill_xsi, if_pos (hfit hlen)]
      exact Fill.ofReported_write_uncut hn hnul (Or.inr hlen)
    · rcases hcut (Nat.le_of_not_lt hlen) with ho | ⟨he, hs⟩
      · rw [freshFill_xsi_of_reportsOverflow errno ho, Fill.cutVisibly_of_le _ (by omega)]
      · rw [freshFill_xsi, if_pos hs]
        exact Fill.ofReported_write_uncut hn hnul (Or.inl he)
  | msvcrt =>
    obtain ⟨rfl, hfit, hcut⟩ := h
    by_cases hlen : (r.data.getD []).length < n
    · rw [freshFill_msvcrt, if_pos (hfit hlen)]
      exact Fill.ofSilent_write_uncut hn hnul (Or.inr hlen)
    · rcases hcut (Nat.le_of_not_lt hlen) with ho | ⟨he, hs⟩
      · rw [freshFill_msvcrt_of_reportsOverflow errno ho, Fill.cutVisibly_of_le _ (by omega)]
      · rw [freshFill_msvcrt, if_pos hs]
        exact Fill.ofSilent_write_uncut hn hnul (Or.inl he)

end Backend

section

variable {b : Backend} (h : Host b) (code : Int32) (r : Resolver) (text : Bytes)

/-- Where a cut shows, a lookup succeeds exactly if the largest buffer has room for the text and a
NUL. -/
theorem resolve_eq_ok_iff_room (hnul : (0 : UInt8) ∉ text)
    (hcalls : ∀ j, b.ShowsCut text (r.length j) (h.answers.replyAt code j)) :
    ((r.resolve code h).1.answer = .ok (Utf8.decodeLossy text) ↔ text.length < r.max.bytes) ∧
      (¬ text.length < r.max.bytes →
        (r.resolve code h).1.answer = .error (.bufferTooSmall code r.max.bytes)) ∧
      ∃ k, IsLeast {j | text.length + b.slack < r.length j ∨ r.length j = r.max.bytes} k ∧
        (r.resolve code h).1.calls = (List.range (k + 1)).map fun j => ⟨code, r.length j⟩ := by
  have hfill : ∀ j, r.fillAt code h j = .cutVisibly text b.slack (r.length j) :=
    fun j => Backend.freshFill_of_showsCut hnul (hcalls j) _ (r.length_pos j)
  obtain ⟨hanswer, hk⟩ := r.resolve_of_threshold code h hfill (fun n hn => if_pos hn)
    (fun n hn => Fill.cutVisibly_not_decisive hn)
  have hfits : text.length < r.max.bytes →
      (r.resolve code h).1.answer = .ok (Utf8.decodeLossy text) := by
    intro hlen
    rw [hanswer, Fill.cutVisibly, if_pos hlen]
    split <;> rfl
  have hcut : ¬ text.length < r.max.bytes →
      (r.resolve code h).1.answer = .error (.bufferTooSmall code r.max.bytes) := by
    intro hlen
    rw [hanswer, Fill.cutVisibly, if_neg (by omega), if_neg hlen]
    rfl
  refine ⟨⟨fun hok => ?_, hfits⟩, hcut, hk⟩
  by_contra hlen
  rw [hcut hlen] at hok
  cases hok

theorem resolve_eq_ok_iff_room_known :
    let r : Resolver := Resolver.sized 4 19
    let text := Utf8.encode "Input/output error"
    let host := Glibc.cLocale.xsi
    (0 : UInt8) ∉ text ∧
      (∀ j, Backend.xsi.ShowsCut text (r.length j) (host.answers.replyAt 5 j)) ∧
      (r.resolve 5 host).1.answer = .ok (Utf8.decodeLossy text) := by
  intro r text host
  have hnul : (0 : UInt8) ∉ text := by decide
  have hcalls : ∀ j, Backend.xsi.ShowsCut text (r.length j) (host.answers.replyAt 5 j) := by
    intro j
    rw [show host.answers = .steady Glibc.cLocale.statusReply from rfl, Answers.replyAt_steady]
    refine ⟨rfl, fun hfit => ?_, fun hcut => Or.inl (Or.inl ?_)⟩
    · exact congrArg StatusReport.status (if_neg (Nat.not_le_of_lt hfit))
    · exact congrArg StatusReport.status (if_pos hcut)
  exact ⟨hnul, hcalls, (resolve_eq_ok_iff_room host 5 r text hnul hcalls).1.2 (by decide)⟩

end

end MessageLookup
