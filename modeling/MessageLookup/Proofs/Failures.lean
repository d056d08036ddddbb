import MessageLookup.Proofs.Calls
import MessageLookup.Report

/-! Why a lookup of the platform fails. Its error says no more than the code, a status and the
largest capacity: statuses for a code that is not known and for a message that does not fit never
come through as a failure of the host's own. -/

namespace MessageLookup

namespace Fill

theorem ofStatus_eq_rejected_iff {status s : Int32} :
    ofStatus status = rejected s ↔ status = s ∧ s ≠ Errno.outOfRange := by
  unfold ofStatus
  split
  · rename_i hs
    simp only [reduceCtorEq, false_iff, not_and, not_not]
    exact fun h => h ▸ hs
  · rename_i hs
    simp only [rejected.injEq]
    exact ⟨fun h => ⟨h, h ▸ hs⟩, And.left⟩

theorem conclude_eq_error {f : Fill} {code : Int32} {c : Capacity} {e : LookupError}
    (h : f.conclude code c = .error e) :
    f = truncated ∧ e = .bufferTooSmall code c.bytes ∨
      ∃ s, f = rejected s ∧
        e = if s = Errno.invalidArgument then .unknownCode code else .failed code s := by
  cases f with
  | message m => cases h
  | full m => cases h
  | truncated => exact Or.inl ⟨rfl, (Except.error.inj h).symm⟩
  | rejected s => exact Or.inr ⟨s, rfl, (Except.error.inj h).symm⟩

end Fill

namespace Backend

/-- The status that a return stands for: status -1 stands for the error number, and a pointer for
none. -/
def statusOf : (b : Backend) → b.Return → Option Int32
  | gnu => fun _ => none
  | xsi => fun r => some (if r.status = -1 then r.errno else r.status)
  | msvcrt => fun r => some r.status

/-- A call is refused with the host's own status, but for a null pointer. -/
theorem interpret_rejected {b : Backend} {buffer : Bytes} {ret : b.Return} {s : Int32}
    (h : b.interpret buffer ret = .rejected s) :
    s ≠ Errno.outOfRange ∧
      (b.statusOf ret = some s ∨ b = gnu ∧ s = Errno.invalidArgument) := by
  cases b with
  | gnu =>
    have h : Pointer.read buffer ret = .rejected s := h
    rcases ret with - | (- | k) | text
    · obtain rfl := Fill.rejected.inj h
      exact ⟨by decide, Or.inr ⟨rfl, rfl⟩⟩
    · exact absurd h (Fill.ofSilent_ne_rejected buffer s)
    · cases h
    · cases h
  | xsi =>
    have h : StatusReturn.readReported buffer ret = .rejected s := h
    unfold StatusReturn.readReported at h
    split at h
    · exact absurd h (Fill.ofReported_ne_rejected buffer s)
    · split at h
      · rename_i hs
        obtain ⟨rfl, hne⟩ := Fill.ofStatus_eq_rejected_iff.1 h
        exact ⟨hne, Or.inl (congrArg some (if_pos hs))⟩
      · rename_i hs
        obtain ⟨rfl, hne⟩ := Fill.ofStatus_eq_rejected_iff.1 h
        exact ⟨hne, Or.inl (congrArg some (if_neg hs))⟩
  | msvcrt =>
    have h : StatusReturn.readSilent buffer ret = .rejected s := h
    unfold StatusReturn.readSilent at h
    split at h
    · exact absurd h (Fill.ofSilent_ne_rejected buffer s)
    · obtain ⟨rfl, hne⟩ := Fill.ofStatus_eq_rejected_iff.1 h
      exact ⟨hne, Or.inl rfl⟩

theorem nul_not_mem_of_interpret_gnu_truncated {buffer : Bytes} {p : Pointer}
    (h : gnu.interpret buffer p = .truncated) : (0 : UInt8) ∉ buffer := by
  have h : Pointer.read buffer p = .truncated := h
  rcases p with - | (- | k) | text
  · cases h
  · exact Fill.ofSilent_eq_truncated_iff.1 h
  · cases h
  · cases h

end Backend

namespace LookupError

/-- The failure of a lookup that its status stands for. -/
def ofStatus (code : Int32) (max : Nat) (status : Int32) : LookupError :=
  if status = Errno.invalidArgument then unknownCode code
  else if status = Errno.outOfRange then bufferTooSmall code max
  else failed code status

/-- An error that says no more than the code, its status and the largest capacity. -/
structure Canonical (e : LookupError) (code : Int32) (max : Nat) : Prop where
  code_eq : e.code = code
  status_invalid : e.status = Errno.invalidArgument ↔ e = unknownCode code
  status_range : e.status = Errno.outOfRange ↔ e = bufferTooSmall code max
  eq_ofStatus : e = ofStatus code max e.status
  osError : e.toOsError.number = e.status

theorem canonical_unknownCode (c : Int32) (max : Nat) : (unknownCode c).Canonical c max := by
  refine ⟨rfl, ?_, ?_, ?_, rfl⟩
  · simp [status]
  · simp [status, Errno.invalidArgument, Errno.outOfRange]
  · simp [status, ofStatus]

theorem canonical_bufferTooSmall (c : Int32) (max : Nat) :
    (bufferTooSmall c max).Canonical c max := by
  refine ⟨rfl, ?_, ?_, ?_, rfl⟩
  · simp [status, Errno.invalidArgument, Errno.outOfRange]
  · simp [status]
  · simp [status, ofStatus, Errno.invalidArgument, Errno.outOfRange]

theorem canonical_failed (c : Int32) (max : Nat) {s : Int32} (hinvalid : s ≠ Errno.invalidArgument)
    (hrange : s ≠ Errno.outOfRange) : (failed c s).Canonical c max := by
  refine ⟨rfl, ?_, ?_, ?_, rfl⟩
  · simp [status, hinvalid]
  · simp [status, hrange]
  · simp [status, ofStatus, hinvalid, hrange]

end LookupError

section

variable {b : Backend} {r : Resolver} {code : Int32} {h : Host b}

/-- The last call of a lookup that failed was cut off in the largest buffer, was for a code that the
host does not know, or was refused with a status that says neither. -/
theorem Resolver.last_of_error {e : LookupError} (he : (r.resolve code h).1.answer = .error e) :
    ∃ k, (r.resolve code h).1.calls = (List.range (k + 1)).map (fun j => ⟨code, r.length j⟩) ∧
      (r.fillAt code h k = .truncated ∧ r.length k = r.max.bytes ∧
          e = .bufferTooSmall code r.max.bytes ∨
        e = .unknownCode code ∨
        ∃ s, b.statusOf (r.servedAt code h k).result = some s ∧
          s ≠ Errno.invalidArgument ∧ s ≠ Errno.outOfRange ∧ e = .failed code s) := by
  obtain ⟨k, hk, hres⟩ := r.resolve_spec code h
  have hends : (r.fillAt code h k).isDecisive = true ∨ r.length k = r.max.bytes := hk.1
  rw [hres] at he
  refine ⟨k, by rw [hres], ?_⟩
  rcases Fill.conclude_eq_error he with ⟨hf, rfl⟩ | ⟨s, hf, rfl⟩
  · have hmax : r.length k = r.max.bytes := by simpa [hf, Fill.isDecisive] using hends
    exact Or.inl ⟨hf, hmax, by rw [r.bytes_capacityAt, hmax]⟩
  · rw [r.fillAt_eq_interpret] at hf
    obtain ⟨hrange, hstatus⟩ := Backend.interpret_rejected hf
    by_cases hs : s = Errno.invalidArgument
    · exact Or.inr (Or.inl (if_pos hs))
    · have hown := hstatus.resolve_right fun hgnu => hs hgnu.2
      exact Or.inr (Or.inr ⟨s, hown, hs, hrange, if_neg hs⟩)

end

theorem Outcome.unless_eq_failed {failure : Option WriteFailure} {o : Outcome} {e : LookupError}
    (h : Outcome.unless failure o = .failed e) : o = .failed e := by
  cases failure with
  | none => exact h
  | some f => cases h

/-- A report that failed shows the error and the calls of its lookup. -/
theorem report_failed {σ : Type} {lookup : Lookup σ} {code : Int32} {streams : Streams} {s : σ}
    {e : LookupError} (h : (report lookup code streams s).1.outcome = .failed e) :
    (lookup.resolve code s).1.answer = .error e ∧
      (report lookup code streams s).1.calls = (lookup.resolve code s).1.calls := by
  cases ha : (lookup.resolve code s).1.answer with
  | ok m =>
    rw [report_of_ok ha] at h
    cases Outcome.unless_eq_failed h
  | error e' =>
    rw [report_of_error ha] at h ⊢
    obtain rfl := Outcome.failed.inj (Outcome.unless_eq_failed h)
    exact ⟨rfl, rfl⟩

section

variable {b : Backend} {r : Resolver} {code : Int32} {h : Host b}

/-- The ways to learn why a lookup of the platform failed, with the calls that it made. -/
inductive Resolver.Fails (r : Resolver) (code : Int32) (h : Host b) :
    LookupError → List Call → Prop where
  | resolve {e : LookupError} (he : (r.resolve code h).1.answer = .error e) :
      Fails r code h e (r.resolve code h).1.calls
  | describe {e : LookupError} (hr : r = shared) (he : (describe code h).1.answer = .error e) :
      Fails r code h e (describe code h).1.calls
  | report (streams : Streams) {e : LookupError}
      (he : (report (r.lookup b) code streams h).1.outcome = .failed e) :
      Fails r code h e (report (r.lookup b) code streams h).1.calls

theorem Resolver.Fails.answer {e : LookupError} {calls : List Call} (hf : r.Fails code h e calls) :
    (r.resolve code h).1.answer = .error e ∧ calls = (r.resolve code h).1.calls := by
  cases hf with
  | resolve he => exact ⟨he, rfl⟩
  | describe hr he =>
    subst hr
    exact ⟨he, rfl⟩
  | report streams he => exact report_failed he

/-- The error of a lookup is fixed by the code, its status and the largest capacity, and its status
by the last call. -/
theorem failure_canonical {e : LookupError} {calls : List Call} (hf : r.Fails code h e calls) :
    e.Canonical code r.max.bytes ∧
      ∃ k, calls.length = k + 1 ∧
        (∀ c n, e = .bufferTooSmall c n →
          n = r.max.bytes ∧ calls.getLast? = some ⟨code, r.max.bytes⟩) ∧
        (∀ c s, e = .failed c s → b.statusOf (r.servedAt code h k).result = some s ∧
          s ≠ Errno.invalidArgument ∧ s ≠ Errno.outOfRange) ∧
        (b = .gnu → (∀ c s, e ≠ .failed c s) ∧
          ∀ c n, e = .bufferTooSmall c n → (0 : UInt8) ∉ (r.servedAt code h k).buffer) := by
  obtain ⟨he, rfl⟩ := hf.answer
  obtain ⟨k, hcalls, hlast⟩ := Resolver.last_of_error he
  have hlen : (r.resolve code h).1.calls.length = k + 1 := by
    rw [hcalls, List.length_map, List.length_range]
  have hcall : (r.resolve code h).1.calls.getLast? = some ⟨code, r.length k⟩ := by
    rw [hcalls, List.range_succ]
    simp
  rcases hlast with ⟨hcut, hmax, rfl⟩ | rfl | ⟨s, hs, hinvalid, hrange, rfl⟩
  · refine ⟨LookupError.canonical_bufferTooSmall _ _, k, hlen, ?_, by simp, ?_⟩
    · rintro c n ⟨⟩
      exact ⟨rfl, by rw [hcall, hmax]⟩
    · rintro rfl
      rw [r.fillAt_eq_interpret] at hcut
      have hnul := Backend.nul_not_mem_of_interpret_gnu_truncated hcut
      exact ⟨by simp, fun c n _ => hnul⟩
  · exact ⟨LookupError.canonical_unknownCode _ _, k, hlen, by simp, by simp, by simp⟩
  · refine ⟨LookupError.canonical_failed _ _ hinvalid hrange, k, hlen, by simp, ?_, ?_⟩
    · rintro c s ⟨⟩
      exact ⟨hs, hinvalid, hrange⟩
    · rintro rfl
      cases hs

/-- A host that first has no room and then fails, and says so in the error number. -/
def Host.failing : Host .xsi where
  answers := .scripted { common := ⟨{ report := ⟨-1, some 34⟩ }, [{ report := ⟨-1, some 5⟩ }]⟩ }

theorem failure_canonical_failing :
    let r : Resolver := Resolver.sized 4 8
    r.Fails 7 Host.failing (.failed 7 5) (r.resolve 7 Host.failing).1.calls ∧
      (LookupError.failed 7 5).Canonical 7 8 ∧
      Backend.xsi.statusOf (r.servedAt 7 Host.failing 1).result = some 5 := by
  intro r
  have he : (r.resolve 7 Host.failing).1.answer = .error (.failed 7 5) := by decide +kernel
  have hlen : (r.resolve 7 Host.failing).1.calls.length = 2 := by decide +kernel
  obtain ⟨hcanonical, k, hk, -, hstatus, -⟩ := failure_canonical (.resolve he)
  obtain rfl : k = 1 := by omega
  exact ⟨.resolve he, hcanonical, (hstatus 7 5 rfl).1⟩

end

end MessageLookup
