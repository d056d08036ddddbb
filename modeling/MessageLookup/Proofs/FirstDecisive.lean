import MessageLookup.Proofs.Calls

/-! What a lookup leaves, read off one call: the first whose fill is decisive or whose buffer is the
largest. The answer is that call's alone, the calls are those up to it, and the log has a line for
every larger buffer and one more for a message. -/

namespace MessageLookup

/-- A record as the log shows it. -/
structure LogLine where
  level : Level
  text : String
  code : Int32
  capacity : Option Nat
  error : Option String
deriving DecidableEq

def Event.line (e : Event) : LogLine where
  level := e.level
  text := e.message
  code := e.code
  capacity := e.capacity?.map Capacity.bytes
  error := e.error?.map LookupError.message

theorem Fill.isDecisive_iff (f : Fill) :
    f.isDecisive = true ↔ (∃ m, f = .message m) ∨ ∃ status, f = .rejected status := by
  cases f <;> simp [isDecisive]

namespace Resolver

variable {b : Backend} (r : Resolver) (code : Int32) (h : Host b)

theorem line_growing (j : Nat) :
    (Event.growing code (r.capacityAt j)).line =
      ⟨.debug, "message truncated, growing buffer", code, some (r.length j), none⟩ := by
  rw [← bytes_capacityAt]
  rfl

end Resolver

/-- The first call whose fill is decisive or whose buffer is the largest fixes the answer, the calls,
the replies used and the log. -/
theorem resolve_fixed_by_first_decisive {b : Backend} (h : Host b) (code : Int32) (r : Resolver) :
    let found := r.resolve code h
    let call := fun j => (r.hostAt code h j).fill code (Bytes.zeroed (r.length j))
    let fill := fun j => (call j).1.fill
    r.hostAt code h 0 = h ∧ (∀ j, r.hostAt code h (j + 1) = (call j).2) ∧
    ∃ k, IsLeast {j | ((∃ m, fill j = .message m) ∨ ∃ status, fill j = .rejected status) ∨
        r.length j = r.max.bytes} k ∧
      found.1.calls = (List.range (k + 1)).map (fun j => ⟨code, r.length j⟩) ∧
      found.2 = (call k).2 ∧ found.2.answers = (·.advance code)^[k + 1] h.answers ∧
      ∃ closing, found.1.log.map Event.line =
          (List.range k).map (fun j =>
            ⟨.debug, "message truncated, growing buffer", code, some (r.length (j + 1)), none⟩) ++
              closing ∧
        match fill k with
        | .message m => found.1.answer = .ok (Utf8.decodeLossy m) ∧
            closing = [⟨.trace, "resolved error message", code, some (r.length k), none⟩]
        | .full m => r.length k = r.max.bytes ∧ found.1.answer = .ok (Utf8.decodeLossy m) ∧
            closing =
              [⟨.trace, "resolved error message at capacity", code, some (r.length k), none⟩]
        | .truncated => found.1.answer = .error (.bufferTooSmall code (r.length k)) ∧ closing = []
        | .rejected status => closing = [] ∧
            (status = Errno.invalidArgument → found.1.answer = .error (.unknownCode code)) ∧
            (status ≠ Errno.invalidArgument → found.1.answer = .error (.failed code status)) := by
  intro found call fill
  have hfill : ∀ j, fill j = r.fillAt code h j := fun j => (r.fill_hostAt code h j).1
  have hnext : ∀ j, r.hostAt code h (j + 1) = (call j).2 := fun j => (r.fill_hostAt code h j).2.symm
  obtain ⟨k, hk, hres⟩ := r.resolve_spec code h
  have hfound : found = _ := hres
  have hends : (r.fillAt code h k).isDecisive = true ∨ r.length k = r.max.bytes := hk.1
  refine ⟨rfl, hnext, k, ?_, ?_, ?_, ?_,
    ((r.fillAt code h k).closing code (r.capacityAt k)).map Event.line, ?_, ?_⟩
  · simpa only [hfill, Fill.isDecisive_iff] using hk
  · rw [hfound]
  · rw [hfound, hnext k]
  · rw [hfound]
    exact r.answers_hostAt code h (k + 1)
  · rw [hfound, List.map_append, List.map_map]
    simp only [Function.comp_def, r.line_growing]
  · rw [hfound, hfill, ← r.bytes_capacityAt k]
    cases hf : r.fillAt code h k with
    | message m => exact ⟨rfl, rfl⟩
    | full m =>
      have hmax : r.length k = r.max.bytes := by simpa [hf, Fill.isDecisive] using hends
      exact ⟨(r.bytes_capacityAt k).trans hmax, rfl, rfl⟩
    | truncated => exact ⟨rfl, rfl⟩
    | rejected status =>
      refine ⟨rfl, fun hs => ?_, fun hs => ?_⟩
      · simp [Fill.conclude, hs]
      · simp [Fill.conclude, hs]

end MessageLookup
