import MessageLookup.Host

/-! How a buffer is read after a call, whatever it held before. Both readings find the same message,
the bytes before the first NUL, and neither finds one in a buffer without a NUL. What a call says is
its reply's doing (`Backend.fillOn`), and no reply changes the length of the buffer. -/

namespace MessageLookup

namespace Bytes

theorem upToNul_append_of_mem {a : Bytes} (h : (0 : UInt8) ∈ a) (b : Bytes) :
    upToNul (a ++ b) = a.upToNul := by
  have hlt := (length_upToNul_lt_iff a).2 h
  unfold upToNul at hlt ⊢
  rw [List.takeWhile_append, if_neg (Nat.ne_of_lt hlt)]

theorem upToNul_append_nul {m : Bytes} (hm : (0 : UInt8) ∉ m) (rest : Bytes) :
    upToNul (m ++ 0 :: rest) = m := by
  induction m with
  | nil => rfl
  | cons x xs ih =>
    obtain ⟨hx, hxs⟩ := not_or.1 (mt List.mem_cons.2 hm)
    have ih := ih hxs
    unfold upToNul at ih ⊢
    rw [List.cons_append, List.takeWhile_cons_of_pos (by simpa using Ne.symm hx), ih]

end Bytes

namespace Fill

open Bytes

/-- Both readings know a buffer by its length and its bytes before the first NUL. -/
theorem ofReported_congr {b b' : Bytes} (hlen : b.length = b'.length)
    (hnul : b.upToNul = b'.upToNul) : ofReported b = ofReported b' := by
  rw [ofReported, ofReported, hlen, hnul]

theorem ofSilent_congr {b b' : Bytes} (hlen : b.length = b'.length)
    (hnul : b.upToNul = b'.upToNul) : ofSilent b = ofSilent b' := by
  rw [ofSilent, ofSilent, hlen, hnul]

/-- A host that reports what does not fit is trusted with every NUL. -/
theorem ofReported_of_nul {m : Bytes} (hm : (0 : UInt8) ∉ m) (rest : Bytes) :
    ofReported (m ++ 0 :: rest) = message m := by
  rw [ofReported, upToNul_append_nul hm, if_pos (by simp)]

theorem ofReported_of_not_mem {buffer : Bytes} (h : (0 : UInt8) ∉ buffer) :
    ofReported buffer = truncated := by
  rw [ofReported, if_neg (mt (length_upToNul_lt_iff buffer).1 h)]

/-- A host that cuts messages off silently is not trusted with a NUL in the last byte. -/
theorem ofSilent_of_nul {m : Bytes} (hm : (0 : UInt8) ∉ m) (rest : Bytes) :
    ofSilent (m ++ 0 :: rest) = if rest = [] then full m else message m := by
  rw [ofSilent, upToNul_append_nul hm]
  cases rest with
  | nil => simp
  | cons x xs => simp

theorem ofSilent_of_not_mem {buffer : Bytes} (h : (0 : UInt8) ∉ buffer) :
    ofSilent buffer = truncated := by
  have hlt := mt (length_upToNul_lt_iff buffer).1 h
  rw [ofSilent, if_neg (by omega), if_neg hlt]

theorem ofReported_eq_truncated_iff {buffer : Bytes} :
    ofReported buffer = truncated ↔ (0 : UInt8) ∉ buffer := by
  refine ⟨fun h hmem => ?_, ofReported_of_not_mem⟩
  obtain ⟨m, rest, rfl, hm⟩ := List.eq_append_cons_of_mem hmem
  rw [ofReported_of_nul hm] at h
  cases h

theorem ofSilent_eq_truncated_iff {buffer : Bytes} :
    ofSilent buffer = truncated ↔ (0 : UInt8) ∉ buffer := by
  refine ⟨fun h hmem => ?_, ofSilent_of_not_mem⟩
  obtain ⟨m, rest, rfl, hm⟩ := List.eq_append_cons_of_mem hmem
  rw [ofSilent_of_nul hm] at h
  split at h <;> cases h

theorem ofReported_ne_full (buffer m : Bytes) : ofReported buffer ≠ full m := by
  unfold ofReported
  split <;> exact fun h => by cases h

theorem ofReported_ne_rejected (buffer : Bytes) (s : Int32) : ofReported buffer ≠ rejected s := by
  unfold ofReported
  split <;> simp

theorem ofSilent_ne_rejected (buffer : Bytes) (s : Int32) : ofSilent buffer ≠ rejected s := by
  unfold ofSilent
  split
  · simp
  · split <;> simp

theorem ofStatus_truncated_or_rejected (status : Int32) :
    ofStatus status = truncated ∨ ofStatus status = rejected status := by
  unfold ofStatus
  split
  · exact Or.inl rfl
  · exact Or.inr rfl

end Fill

namespace Ending

open Bytes

theorem length_written_le (e : Ending) (data : Bytes) {n : Nat} (hn : 0 < n) :
    (e.written data n).length ≤ n := by
  cases e <;> simp only [written, List.length_append, List.length_take, List.length_singleton] <;>
    omega

theorem length_write (e : Ending) (data : Option Bytes) {buffer : Bytes} (hne : buffer ≠ []) :
    (e.write data buffer).length = buffer.length := by
  cases data with
  | none => rfl
  | some d =>
    rw [write]
    exact length_overwrite buffer _ (e.length_written_le d (List.length_pos_iff.2 hne))

end Ending

theorem PointerReply.length_serve (r : PointerReply) {buffer : Bytes} (hne : buffer ≠ []) :
    (r.serve buffer).buffer.length = buffer.length := by
  have hwrite := r.ending.length_write r.data hne
  cases htarget : r.target with
  | null => simpa only [serve, htarget] using hwrite
  | static => simp only [serve, htarget]
  | start => simpa only [serve, htarget] using hwrite
  | within k => simpa only [serve, htarget, List.length_set] using hwrite

namespace Backend

theorem length_serve {b : Backend} (r : b.Reply) (errno : Int32) {buffer : Bytes}
    (hne : buffer ≠ []) : (b.serve r errno buffer).buffer.length = buffer.length := by
  cases b with
  | gnu => exact PointerReply.length_serve r hne
  | xsi => exact r.ending.length_write r.data hne
  | msvcrt => exact r.ending.length_write r.data hne

/-- The fill that a reply gives with a buffer. -/
def fillOn (b : Backend) (reply : b.Reply) (errno : Int32) (buffer : Bytes) : Fill :=
  b.interpret (b.serve reply errno buffer).buffer (b.serve reply errno buffer).result

section Pointer

variable {r : PointerReply} (errno : Int32) (buffer : Bytes)

theorem fillOn_null (h : r.target = .null) :
    gnu.fillOn r errno buffer = .rejected Errno.invalidArgument := by
  simp only [fillOn, serve, PointerReply.serve, h]
  rfl

theorem fillOn_static (h : r.target = .static) :
    gnu.fillOn r errno buffer = .message (r.data.getD []).upToNul := by
  simp only [fillOn, serve, PointerReply.serve, h]
  rfl

theorem fillOn_start (h : r.target = .start) :
    gnu.fillOn r errno buffer = .ofSilent (r.ending.write r.data buffer) := by
  simp only [fillOn, serve, PointerReply.serve, h]
  rfl

theorem fillOn_within {k : Nat} (h : r.target = .within k) :
    gnu.fillOn r errno buffer =
      (Pointer.inside (min k (buffer.length - 1))).read
        ((r.ending.write r.data buffer).set (buffer.length - 1) 0) := by
  simp only [fillOn, serve, PointerReply.serve, h]
  rfl

theorem fillOn_within_zero (h : r.target = .within 0) :
    gnu.fillOn r errno buffer =
      .ofSilent ((r.ending.write r.data buffer).set (buffer.length - 1) 0) := by
  rw [fillOn_within errno buffer h, Nat.zero_min]
  rfl

end Pointer

section Status

variable (r : StatusReply) (errno : Int32) (buffer : Bytes)

theorem fillOn_xsi :
    xsi.fillOn r errno buffer =
      if (r.reportFor buffer.length).status = 0 then .ofReported (r.ending.write r.data buffer)
      else if (r.reportFor buffer.length).status = -1 then
        .ofStatus ((r.reportFor buffer.length).errno.getD errno)
      else .ofStatus (r.reportFor buffer.length).status := rfl

theorem fillOn_msvcrt :
    msvcrt.fillOn r errno buffer =
      if (r.reportFor buffer.length).status = 0 then .ofSilent (r.ending.write r.data buffer)
      else .ofStatus (r.reportFor buffer.length).status := rfl

end Status

end Backend

end MessageLookup
