import MessageLookup.Host.Glibc
import MessageLookup.Proofs.Calls

/-! Hosts that cut messages off without saying so. A lookup on one always gets an answer, cut by the
largest buffer alone, and it asks for larger buffers until one has a byte to spare. -/

namespace MessageLookup

open Bytes

namespace Fill

/-- The fill of `n` bytes by a host that cuts the message silently. -/
def cutSilently (m : Bytes) (n : Nat) : Fill :=
  if m.length + 1 < n then message m else full (m.take (n - 1))

theorem cutSilently_not_decisive {m : Bytes} {n : Nat} (h : ¬ m.length + 1 < n) :
    (cutSilently m n).isDecisive = false := by
  unfold cutSilently
  rw [if_neg h]
  rfl

theorem conclude_cutSilently (m : Bytes) (code : Int32) (c : Capacity) :
    (cutSilently m c.bytes).conclude code c = .ok (Utf8.decodeLossy (m.take (c.bytes - 1))) := by
  unfold cutSilently
  split
  · rw [List.take_of_length_le (by omega)]
    rfl
  · rfl

theorem ofSilent_write_always (data : Option Bytes) {n : Nat} (hn : 0 < n) :
    ofSilent (Ending.always.write data (zeroed n)) = cutSilently (data.getD []).upToNul n := by
  unfold cutSilently
  rw [ofSilent_write _ _ hn, if_pos (Or.inl rfl)]

end Fill

namespace Backend

/-- A call with `n` bytes that writes the text, cut to leave room for a NUL, and succeeds anyway. -/
def CutsSilently (text : Bytes) (n : Nat) : (b : Backend) → b.Reply → Prop
  | gnu => fun r => r.data.getD [] = text ∧ r.ending = .always ∧ r.target.IsBuffer
  | xsi => fun _ => False
  | msvcrt => fun r => r.data.getD [] = text ∧ r.ending = .always ∧ (r.reportFor n).status = 0

theorem freshFill_of_cutsSilently {b : Backend} {text : Bytes} {n : Nat} {r : b.Reply}
    (h : b.CutsSilently text n r) (errno : Int32) (hn : 0 < n) :
    b.freshFill r errno n = .cutSilently text.upToNul n := by
  cases b with
  | gnu =>
    obtain ⟨rfl, he, ht | ht⟩ := h
    · rw [freshFill_start errno ht, he]
      exact Fill.ofSilent_write_always r.data hn
    · rw [freshFill_within_zero errno ht hn]
      exact Fill.ofSilent_write_always r.data hn
  | xsi => exact h.elim
  | msvcrt =>
    obtain ⟨rfl, he, hs⟩ := h
    rw [freshFill_msvcrt, if_pos hs, he]
    exact Fill.ofSilent_write_always r.data hn

end Backend

section

variable {b : Backend} (h : Host b) (code : Int32) (r : Resolver) (text : Bytes)

/-- The answer is the message as the largest buffer cuts it. -/
theorem answer_of_cutsSilently
    (hcalls : ∀ j, b.CutsSilently text (r.length j) (h.answers.replyAt code j)) :
    (r.resolve code h).1.answer =
      .ok (Utf8.decodeLossy (text.upToNul.take (r.max.bytes - 1))) := by
  have hfill : ∀ j, r.fillAt code h j = .cutSilently text.upToNul (r.length j) :=
    fun j => Backend.freshFill_of_cutsSilently (hcalls j) _ (r.length_pos j)
  obtain ⟨hanswer, -⟩ := r.resolve_of_threshold code h hfill (fun n hn => if_pos hn)
    (fun n hn => Fill.cutSilently_not_decisive hn)
  rw [hanswer, Fill.conclude_cutSilently]

/-- A host that cuts silently always gets an answer, which only the largest buffer cuts. Larger
buffers are asked for until one has a byte to spare. -/
theorem resolve_cut_by_largest
    (hcalls : ∀ j, b.CutsSilently text (r.length j) (h.answers.replyAt code j)) :
    (r.resolve code h).1.answer =
        .ok (Utf8.decodeLossy (text.upToNul.take (min text.upToNul.length (r.max.bytes - 1)))) ∧
      (text.upToNul.length < r.max.bytes →
        (r.resolve code h).1.answer = .ok (Utf8.decodeLossy text.upToNul)) ∧
      ∃ k, IsLeast {j | text.upToNul.length + 1 < r.length j ∨ r.length j = r.max.bytes} k ∧
        (r.resolve code h).1.calls = (List.range (k + 1)).map fun j => ⟨code, r.length j⟩ := by
  have hfill : ∀ j, r.fillAt code h j = .cutSilently text.upToNul (r.length j) :=
    fun j => Backend.freshFill_of_cutsSilently (hcalls j) _ (r.length_pos j)
  generalize text.upToNul = message at hfill ⊢
  obtain ⟨hanswer, hk⟩ := r.resolve_of_threshold code h hfill (fun n hn => if_pos hn)
    (fun n hn => Fill.cutSilently_not_decisive hn)
  have hmax : (r.resolve code h).1.answer =
      .ok (Utf8.decodeLossy (message.take (min message.length (r.max.bytes - 1)))) := by
    rw [hanswer, Fill.cutSilently]
    split
    · rw [Nat.min_eq_left (by omega), List.take_length]
      rfl
    · rw [Nat.min_comm, ← List.take_eq_take_min]
      rfl
  refine ⟨hmax, fun hlen => ?_, hk⟩
  rw [hmax, Nat.min_eq_left (by omega), List.take_length]

theorem resolve_cut_by_largest_unknown :
    let r : Resolver := Resolver.sized 8 16
    let text := Utf8.encode (Glibc.unknownMessage 1000000)
    let host := Glibc.cLocale.gnu
    (∀ j, Backend.gnu.CutsSilently text (r.length j) (host.answers.replyAt 1000000 j)) ∧
      (r.resolve 1000000 host).1.answer = .ok "Unknown error 1" ∧
      (r.resolve 1000000 host).1.calls = [⟨1000000, 8⟩, ⟨1000000, 16⟩] := by
  intro r text host
  have hcalls : ∀ j,
      Backend.gnu.CutsSilently text (r.length j) (host.answers.replyAt 1000000 j) := by
    intro j
    rw [show host.answers = .steady Glibc.cLocale.pointerReply from rfl, Answers.replyAt_steady]
    exact ⟨rfl, rfl, Or.inl rfl⟩
  obtain ⟨hanswer, -, k, hk, hmade⟩ := resolve_cut_by_largest host 1000000 r text hcalls
  have hk1 : k = 1 := by
    refine Nat.le_antisymm (hk.2 (Or.inr rfl)) (Nat.pos_of_ne_zero fun h0 => ?_)
    rw [h0] at hk
    exact absurd hk.1 (by decide)
  refine ⟨hcalls, hanswer.trans (congrArg Except.ok (by decide)), ?_⟩
  rw [hmade, hk1]
  rfl

end

end MessageLookup
