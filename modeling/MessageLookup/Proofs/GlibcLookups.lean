import MessageLookup.Proofs.Decoding
import MessageLookup.Proofs.SilentCut
import MessageLookup.Proofs.VisibleCut

/-! Lookups on glibc. A pointer to a string of its own makes the size of the buffer irrelevant, so
GNU always has an answer and its messages are whole; XSI has the same messages if the largest buffer
has room for them, and none for other codes. -/

namespace MessageLookup

theorem Decimal.isPlain_code (c : Int32) : Utf8.isPlain (code c) = true := by
  rw [Utf8.isPlain_iff]
  intro x hx
  rcases isDigit_or_minus_of_mem_code hx with hdigit | rfl
  · have hbounds : 48 ≤ x.toNat ∧ x.toNat ≤ 57 := Char.isDigit_iff_toNat.1 hdigit
    omega
  · decide

namespace Glibc

theorem isPlain_unknownMessage (code : Int32) : Utf8.isPlain (unknownMessage code) = true :=
  Utf8.isPlain_append (by decide) (Decimal.isPlain_code code)

variable {t : Table} {code : Int32} (errno : Int32) (r : Resolver)

section Known

variable {m : String} (h : t.message? code = some m)
include h

theorem gnu_of_known :
    (r.resolve code { t.gnu with errno := errno }).1.answer = .ok m ∧
      (r.resolve code { t.gnu with errno := errno }).1.calls = [⟨code, r.initial.bytes⟩] := by
  have hfill : r.fillAt code { t.gnu with errno := errno } 0 = .message (Utf8.encode m) := by
    rw [r.fillAt_of_steady code _ rfl, Table.pointerReply, h, Backend.freshFill_static _ rfl]
    exact congrArg Fill.message (Bytes.upToNul_eq_self (Table.nul_not_mem_message h))
  obtain ⟨hanswer, hcalls⟩ := r.resolve_of_first_decisive code { t.gnu with errno := errno }
    (by rw [hfill]; rfl)
  refine ⟨?_, hcalls⟩
  rw [hanswer, hfill, Fill.conclude, Utf8.decodeLossy_encode]

theorem xsi_of_known :
    (r.resolve code { t.xsi with errno := errno }).1.answer =
      if (Utf8.encode m).length < r.max.bytes then .ok m
      else .error (.bufferTooSmall code r.max.bytes) := by
  have hshows : ∀ n, Backend.xsi.ShowsCut (Utf8.encode m) n (t.statusReply code) := by
    intro n
    rw [Table.statusReply, h]
    refine ⟨rfl, fun hfit => ?_, fun hcut => Or.inl (Or.inl ?_)⟩
    · exact congrArg StatusReport.status (if_neg (Nat.not_le_of_lt hfit))
    · exact congrArg StatusReport.status (if_pos hcut)
  have hfill : ∀ j, r.fillAt code { t.xsi with errno := errno } j =
      .cutVisibly (Utf8.encode m) 0 (r.length j) := by
    intro j
    rw [r.fillAt_of_steady code _ rfl]
    exact Backend.freshFill_of_showsCut (Table.nul_not_mem_message h) (hshows _) _ (r.length_pos j)
  have hanswer := (r.resolve_of_threshold code _ hfill (fun n hn => if_pos hn)
    (fun n hn => Fill.cutVisibly_not_decisive hn)).1
  rw [hanswer, Fill.conclude_cutVisibly, Utf8.decodeLossy_encode]

end Known

section Unknown

variable (h : t.message? code = none)
include h

theorem gnu_of_unknown :
    (r.resolve code { t.gnu with errno := errno }).1.answer =
      .ok (Utf8.decodeLossy ((Utf8.encode (unknownMessage code)).take (r.max.bytes - 1))) := by
  have hcuts : ∀ j, Backend.gnu.CutsSilently (Utf8.encode (unknownMessage code)) (r.length j)
      ((Answers.steady t.pointerReply).replyAt code j) := by
    intro j
    rw [Answers.replyAt_steady, Table.pointerReply, h]
    exact ⟨rfl, rfl, Or.inl rfl⟩
  have hnul := Utf8.nul_not_mem_of_isPlain (isPlain_unknownMessage code)
  rw [answer_of_cutsSilently _ code r _ hcuts, Bytes.upToNul_eq_self (Utf8.nul_not_mem_encode hnul)]

theorem xsi_of_unknown :
    (r.resolve code { t.xsi with errno := errno }).1.answer = .error (.unknownCode code) ∧
      (r.resolve code { t.xsi with errno := errno }).1.calls = [⟨code, r.initial.bytes⟩] := by
  have hfill : r.fillAt code { t.xsi with errno := errno } 0 = .rejected Errno.invalidArgument := by
    rw [r.fillAt_of_steady code _ rfl, Table.statusReply, h, Backend.freshFill_xsi]
    have hreport : StatusReply.refusal.reportFor (r.length 0) = ⟨Errno.invalidArgument, none⟩ :=
      if_neg (by have := r.length_pos 0; simp [StatusReply.refusal]; omega)
    simp only [hreport]
    rfl
  obtain ⟨hanswer, hcalls⟩ := r.resolve_of_first_decisive code { t.xsi with errno := errno }
    (by rw [hfill]; rfl)
  refine ⟨?_, hcalls⟩
  rw [hanswer, hfill]
  rfl

end Unknown

/-- Whatever the table is, GNU answers every code, with the whole message of a known one for all
capacities. XSI refuses every other code at once, and has the message of a known one if it fits; then
GNU has the same. -/
theorem lookups_by_table (t : Table) (code : Int32) (errno errno' : Int32) (r : Resolver) :
    let onGnu := fun r : Resolver => (r.resolve code { t.gnu with errno := errno }).1
    let onXsi := (r.resolve code { t.xsi with errno := errno' }).1
    let other := Utf8.encode ("Unknown error " ++ Decimal.code code)
    (match t.message? code with
      | some m =>
        (onGnu r).answer = .ok m ∧ (onGnu r).calls = [⟨code, r.initial.bytes⟩] ∧
          onXsi.answer =
            if (Utf8.encode m).length < r.max.bytes then .ok m
            else .error (.bufferTooSmall code r.max.bytes)
      | none =>
        (∃ m, (onGnu r).answer = .ok m ∧
            Utf8.encode m = other.take (min other.length (r.max.bytes - 1))) ∧
          onXsi.answer = .error (.unknownCode code) ∧
          onXsi.calls = [⟨code, r.initial.bytes⟩]) ∧
      ∀ (r' : Resolver) (m : String), onXsi.answer = .ok m → (onGnu r').answer = .ok m := by
  intro onGnu onXsi other
  cases hm : t.message? code with
  | some m =>
    have hgnu := fun r => gnu_of_known errno r hm
    have hxsi : onXsi.answer = _ := xsi_of_known errno' r hm
    refine ⟨⟨(hgnu r).1, (hgnu r).2, hxsi⟩, fun r' m' hok => ?_⟩
    rw [hxsi] at hok
    split at hok
    · obtain rfl := Except.ok.inj hok
      exact (hgnu r').1
    · cases hok
  | none =>
    have hgnu : (onGnu r).answer = _ := gnu_of_unknown errno r hm
    have hxsi := xsi_of_unknown errno' r hm
    refine ⟨⟨⟨_, hgnu, ?_⟩, hxsi⟩, fun r' m hok => ?_⟩
    · have hcut := Utf8.take_encode (isPlain_unknownMessage code) (r.max.bytes - 1)
      rw [hcut, Utf8.decodeLossy_encode, ← hcut, List.take_eq_take_min, Nat.min_comm]
      rfl
    · cases hxsi.1.symm.trans hok

theorem lookups_by_table_cLocale :
    let r := Resolver.sized 1 16
    (r.resolve 84 cLocale.gnu).1.answer =
        .ok "Invalid or incomplete multibyte or wide character" ∧
      (r.resolve 84 cLocale.xsi).1.answer = .error (.bufferTooSmall 84 16) ∧
      (r.resolve (-1) cLocale.gnu).1.answer = .ok "Unknown error -" ∧
      (r.resolve (-1) cLocale.xsi).1.answer = .error (.unknownCode (-1)) := by
  intro r
  have hknown := (lookups_by_table cLocale 84 0 0 r).1
  have hother := (lookups_by_table cLocale (-1) 0 0 r).1
  have hfound : cLocale.message? 84 = some "Invalid or incomplete multibyte or wide character" := by
    decide +kernel
  have hmissing : cLocale.message? (-1) = none := by decide +kernel
  rw [hfound] at hknown
  rw [hmissing] at hother
  obtain ⟨hgnu, -, hxsi⟩ := hknown
  obtain ⟨⟨m, hcut, hbytes⟩, hrefused, -⟩ := hother
  -- the message of code -1 has 16 bytes, and the last is cut off
  have hm : m = "Unknown error -" := Utf8.encode_injective (hbytes.trans (by decide))
  subst hm
  exact ⟨hgnu, hxsi.trans (if_neg (by decide)), hcut, hrefused⟩

end Glibc

end MessageLookup
