import MessageLookup.Proofs.Scratch

/-! Failures that carry the number of success. Every status that a call returns is compared with 0
before it counts as a failure, but the error number behind a status of -1 is not: it may be 0, and the
lookup then fails with status 0. That is the only way to it. -/

namespace MessageLookup

namespace Backend

/-- The call failed, and the error number that is to say why is 0. -/
def FailsUnexplained : (b : Backend) → b.Return → Prop
  | gnu => fun _ => False
  | xsi => fun r => r.status = -1 ∧ r.errno = 0
  | msvcrt => fun _ => False

/-- A reply to a call with `n` bytes that sets an error number other than 0 if it returns -1. -/
def ExplainsFailure (n : Nat) : (b : Backend) → b.Reply → Prop
  | gnu => fun _ => True
  | xsi => fun r => (r.reportFor n).status = -1 → ∃ s, (r.reportFor n).errno = some s ∧ s ≠ 0
  | msvcrt => fun _ => True

theorem ExplainsFailure.not_unexplained {b : Backend} {r : b.Reply} {buffer : Bytes}
    (h : b.ExplainsFailure buffer.length r) (errno : Int32) :
    ¬ b.FailsUnexplained (b.serve r errno buffer).result := by
  cases b with
  | gnu => exact not_false
  | xsi =>
    rintro ⟨hstatus, hzero⟩
    obtain ⟨s, hs, hne⟩ := h hstatus
    have hzero : (r.reportFor buffer.length).errno.getD errno = 0 := hzero
    rw [hs] at hzero
    exact hne hzero
  | msvcrt => exact not_false

theorem interpret_eq_rejected_zero_iff {b : Backend} {buffer : Bytes} {ret : b.Return} :
    b.interpret buffer ret = .rejected 0 ↔ b.FailsUnexplained ret := by
  constructor
  · intro h
    have hin : ¬ b.InBuffer ret := fun hin => interpret_ne_rejected hin buffer 0 h
    have hstatus : b.statusOf ret = some 0 :=
      (interpret_rejected h).2.resolve_right fun hgnu => absurd hgnu.2 (by decide)
    cases b with
    | gnu => cases hstatus
    | xsi =>
      have hstatus := Option.some.inj hstatus
      split at hstatus
      · rename_i hs
        exact ⟨hs, hstatus⟩
      · exact absurd hstatus hin
    | msvcrt => exact absurd (Option.some.inj hstatus) hin
  · intro h
    cases b with
    | gnu => exact h.elim
    | xsi =>
      obtain ⟨hs, hzero⟩ := h
      have hin : ¬ xsi.InBuffer ret := fun hin => absurd (hs.symm.trans hin) (by decide)
      have hstatus : xsi.statusOf ret = some 0 := by
        rw [← hzero]
        exact congrArg some (if_pos hs)
      rw [interpret_of_statusOf hin hstatus]
      exact Fill.ofStatus_eq_rejected_iff.2 ⟨rfl, by decide⟩
    | msvcrt => exact h.elim

end Backend

theorem Fill.status_eq_zero_iff {f : Fill} {code : Int32} {c : Capacity} {e : LookupError}
    (h : f.conclude code c = .error e) : e.status = 0 ↔ f = .rejected 0 := by
  rcases conclude_eq_error h with ⟨rfl, rfl⟩ | ⟨s, rfl, rfl⟩
  · simp [LookupError.status, Errno.outOfRange]
  · by_cases hs : s = Errno.invalidArgument
    · simp [hs, LookupError.status, Errno.invalidArgument]
    · simp [hs, LookupError.status]

/-- A lookup that failed has a status other than 0, unless its last call returned -1 with an error
number of 0. Where every call that returns -1 sets another one, so that neither the status nor the
error of the operating system is that of success. -/
theorem error_status_eq_zero_iff {b : Backend} (h : Host b) (code : Int32) (r : Resolver)
    (e : LookupError) (he : (r.resolve code h).1.answer = .error e) :
    (∃ k, (r.resolve code h).1.calls.length = k + 1 ∧
      (e.status = 0 ↔ b.FailsUnexplained (r.servedAt code h k).result)) ∧
    (e.status = 0 → b = .xsi ∧ e = .failed code 0) ∧
    ((∀ j < (r.resolve code h).1.calls.length,
        b.ExplainsFailure (r.length j) (h.answers.replyAt code j)) →
      e.status ≠ 0 ∧ e.toOsError.number ≠ 0) := by
  obtain ⟨k, hlen⟩ := r.exists_length_calls code h
  rw [(Resolver.endsAt_of_length hlen).answer_eq] at he
  have hlast : e.status = 0 ↔ b.FailsUnexplained (r.servedAt code h k).result := by
    rw [Fill.status_eq_zero_iff he, r.fillAt_eq_interpret, Backend.interpret_eq_rejected_zero_iff]
  refine ⟨⟨k, hlen, hlast⟩, fun hzero => ⟨?_, ?_⟩, fun hexplains => ?_⟩
  · have hfails := hlast.1 hzero
    cases b with
    | gnu => exact hfails.elim
    | xsi => rfl
    | msvcrt => exact hfails.elim
  · rw [(Fill.status_eq_zero_iff he).1 hzero] at he
    exact (Except.error.inj he).symm
  · have hne : e.status ≠ 0 := by
      rw [Ne, hlast, Resolver.servedAt, Host.served, r.reply_hostAt]
      refine Backend.ExplainsFailure.not_unexplained ?_ _
      rw [Bytes.length_zeroed]
      exact hexplains k (by omega)
    exact ⟨hne, hne⟩

-- the error number comes from the second call
theorem error_status_eq_zero_iff_failing :
    let r : Resolver := Resolver.sized 4 8
    (r.resolve 7 Host.failing).1.answer = .error (.failed 7 5) ∧
      (∀ j < (r.resolve 7 Host.failing).1.calls.length,
        Backend.xsi.ExplainsFailure (r.length j) (Host.failing.answers.replyAt 7 j)) ∧
      (LookupError.failed 7 5).status ≠ 0 := by
  intro r
  have he : (r.resolve 7 Host.failing).1.answer = .error (.failed 7 5) := by decide +kernel
  have hlen : (r.resolve 7 Host.failing).1.calls.length = 2 := by decide +kernel
  have hexplains : ∀ j < (r.resolve 7 Host.failing).1.calls.length,
      Backend.xsi.ExplainsFailure (r.length j) (Host.failing.answers.replyAt 7 j) := by
    rw [hlen]
    rintro (_ | _ | j) hj
    · exact fun _ => ⟨34, rfl, by decide⟩
    · exact fun _ => ⟨5, rfl, by decide⟩
    · omega
  obtain ⟨-, -, hne⟩ := error_status_eq_zero_iff Host.failing 7 r _ he
  exact ⟨he, hexplains, (hne hexplains).1⟩

def Host.unexplained : Host .xsi where
  answers := .steady fun _ => { report := ⟨-1, some 0⟩ }

/-- So a lookup can fail with status 0. -/
theorem error_status_zero_of_unexplained :
    ((Resolver.sized 8 8).resolve 7 Host.unexplained).1.answer = .error (.failed 7 0) ∧
      (LookupError.failed 7 0).status = 0 ∧ (LookupError.failed 7 0).toOsError.number = 0 := by
  decide +kernel

end MessageLookup
