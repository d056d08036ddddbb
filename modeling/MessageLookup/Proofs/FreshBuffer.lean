import MessageLookup.Proofs.Readings

/-! What a reply leaves in a fresh buffer, and how the two readings see it. The bytes after the text
are zero, so the first NUL ends the message or what was kept of it: only the ending says whether a
text that was cut still has a NUL. -/

namespace MessageLookup

namespace Bytes

theorem length_zeroed (n : Nat) : (zeroed n).length = n := List.length_replicate

theorem zeroed_ne_nil {n : Nat} (hn : 0 < n) : zeroed n ≠ [] :=
  List.ne_nil_of_length_pos (by rwa [length_zeroed])

theorem upToNul_take (b : Bytes) (n : Nat) : upToNul (b.take n) = b.upToNul.take n :=
  List.take_takeWhile.symm

theorem upToNul_append_zeroed (b : Bytes) (n : Nat) : upToNul (b ++ zeroed n) = b.upToNul := by
  induction b with
  | nil => cases n <;> rfl
  | cons x xs ih =>
    unfold upToNul at ih ⊢
    rw [List.cons_append, List.takeWhile_cons, List.takeWhile_cons, ih]

theorem upToNul_eq_self {b : Bytes} (h : (0 : UInt8) ∉ b) : b.upToNul = b := by
  have hlt := mt (length_upToNul_lt_iff b).1 h
  exact (List.takeWhile_prefix _).eq_of_length_le (by unfold upToNul at hlt; omega)

theorem overwrite_zeroed (n : Nat) (front : Bytes) :
    (zeroed n).overwrite front = front ++ zeroed (n - front.length) := by
  rw [overwrite, zeroed, List.drop_replicate, zeroed]

/-- A NUL put into the last byte hides that byte. -/
theorem upToNul_set_last (b : Bytes) :
    upToNul (b.set (b.length - 1) 0) = b.upToNul.take (b.length - 1) := by
  rcases List.eq_nil_or_concat b with rfl | ⟨front, x, rfl⟩
  · rfl
  · have hset : (front ++ [x]).set (front.length) 0 = front ++ zeroed 1 := by simp [zeroed]
    have htake : (front ++ [x]).take front.length = front := List.take_left
    simp only [List.concat_eq_append, List.length_append, List.length_singleton, Nat.add_sub_cancel]
    rw [hset, upToNul_append_zeroed, ← upToNul_take, htake]

end Bytes

namespace Ending

open Bytes

/-- How many bytes of a longer text are left before the first NUL, or the end, of `n` bytes. -/
def kept (n : Nat) : Ending → Nat
  | always => n - 1
  | room => n
  | never => n

theorem kept_le (n : Nat) (e : Ending) : e.kept n ≤ n := by
  cases e <;> simp only [kept] <;> omega

theorem le_kept (n : Nat) (e : Ending) : n - 1 ≤ e.kept n := by
  cases e <;> simp only [kept] <;> omega

theorem kept_eq_of_ne {e : Ending} (h : e ≠ .always) (n : Nat) : e.kept n = n := by
  cases e with
  | always => exact absurd rfl h
  | room => rfl
  | never => rfl

theorem upToNul_written (e : Ending) (data : Bytes) (n : Nat) :
    upToNul (e.written data n) = data.upToNul.take (e.kept n) := by
  cases e with
  | always => exact (upToNul_append_zeroed _ 1).trans (upToNul_take data (n - 1))
  | room => exact (upToNul_take _ n).trans (congrArg (List.take n) (upToNul_append_zeroed data 1))
  | never => exact upToNul_take data n

theorem length_write_zeroed (e : Ending) (data : Option Bytes) {n : Nat} (hn : 0 < n) :
    (e.write data (zeroed n)).length = n := by
  rw [e.length_write data (zeroed_ne_nil hn), length_zeroed]

theorem upToNul_write (e : Ending) (data : Option Bytes) (n : Nat) :
    upToNul (e.write data (zeroed n)) = (data.getD []).upToNul.take (e.kept n) := by
  cases data with
  | none =>
    have h := upToNul_append_zeroed [] n
    rw [List.nil_append] at h
    rw [write, h]
    simp [upToNul]
  | some d =>
    rw [write, length_zeroed, overwrite_zeroed, upToNul_append_zeroed, upToNul_written]
    rfl

end Ending

namespace Fill

open Bytes

theorem ofSilent_write (e : Ending) (data : Option Bytes) {n : Nat} (hn : 0 < n) :
    ofSilent (e.write data (zeroed n)) =
      if (data.getD []).upToNul.length + 1 < n then message (data.getD []).upToNul
      else if e = .always ∨ (data.getD []).upToNul.length < n then
        full ((data.getD []).upToNul.take (n - 1))
      else truncated := by
  rw [ofSilent, Ending.upToNul_write, Ending.length_write_zeroed e data hn]
  generalize (data.getD []).upToNul = m
  rw [List.length_take]
  have hkept := Ending.le_kept n e
  have hkept' := e.kept_le n
  by_cases hfit : m.length + 1 < n
  · rw [List.take_of_length_le (by omega), if_pos (by omega), if_pos hfit]
  · rw [if_neg (by omega), if_neg hfit]
    by_cases hnul : e = .always ∨ m.length < n
    · rw [if_pos hnul]
      rcases hnul with rfl | hlen
      · exact if_pos (by simp only [Ending.kept]; omega)
      · rw [if_pos (by omega), List.take_of_length_le (by omega), List.take_of_length_le (by omega)]
    · obtain ⟨hne, hlen⟩ := not_or.1 hnul
      rw [if_neg hnul, Ending.kept_eq_of_ne hne n, if_neg (by omega)]

theorem ofReported_write (e : Ending) (data : Option Bytes) {n : Nat} (hn : 0 < n) :
    ofReported (e.write data (zeroed n)) =
      if (data.getD []).upToNul.length < n then message (data.getD []).upToNul
      else if e = .always then message ((data.getD []).upToNul.take (n - 1))
      else truncated := by
  rw [ofReported, Ending.upToNul_write, Ending.length_write_zeroed e data hn]
  generalize (data.getD []).upToNul = m
  rw [List.length_take]
  have hkept := Ending.le_kept n e
  have hkept' := e.kept_le n
  by_cases hfit : m.length < n
  · rw [List.take_of_length_le (by omega), if_pos (by omega), if_pos hfit]
  · rw [if_neg hfit]
    by_cases he : e = .always
    · subst he
      rw [if_pos rfl]
      exact if_pos (by simp only [Ending.kept]; omega)
    · rw [if_neg he, Ending.kept_eq_of_ne he n, if_neg (by omega)]

/-- A NUL put into the last byte makes up for an ending without one. -/
theorem ofSilent_set_last_write (e : Ending) (data : Option Bytes) {n : Nat} (hn : 0 < n) :
    ofSilent ((e.write data (zeroed n)).set (n - 1) 0) =
      ofSilent (Ending.always.write data (zeroed n)) := by
  have hlen := Ending.length_write_zeroed e data hn
  have hlen' := Ending.length_write_zeroed .always data hn
  refine ofSilent_congr (by rw [List.length_set, hlen, hlen']) ?_
  have hset := upToNul_set_last (e.write data (zeroed n))
  have hkept := Ending.le_kept n e
  rw [hlen] at hset
  rw [hset, Ending.upToNul_write, Ending.upToNul_write, List.take_take, Nat.min_eq_left hkept]
  rfl

end Fill

/-- The returned pointer is the buffer itself. -/
def Target.IsBuffer (t : Target) : Prop := t = .start ∨ t = .within 0

namespace Backend

open Bytes

/-- The bytes of a reply's data, none if it has no data. -/
def payload : (b : Backend) → b.Reply → Bytes
  | gnu => fun r => r.data.getD []
  | xsi => fun r => r.data.getD []
  | msvcrt => fun r => r.data.getD []

/-- The fill that a reply gives with a fresh buffer of `n` bytes. -/
def freshFill (b : Backend) (reply : b.Reply) (errno : Int32) (n : Nat) : Fill :=
  b.fillOn reply errno (zeroed n)

section Pointer

variable {r : PointerReply} (errno : Int32) {n : Nat}

theorem freshFill_null (h : r.target = .null) :
    gnu.freshFill r errno n = .rejected Errno.invalidArgument := fillOn_null errno _ h

theorem freshFill_static (h : r.target = .static) :
    gnu.freshFill r errno n = .message (r.data.getD []).upToNul := fillOn_static errno _ h

theorem freshFill_start (h : r.target = .start) :
    gnu.freshFill r errno n = .ofSilent (r.ending.write r.data (zeroed n)) := fillOn_start errno _ h

theorem freshFill_within_zero (h : r.target = .within 0) (hn : 0 < n) :
    gnu.freshFill r errno n = .ofSilent (Ending.always.write r.data (zeroed n)) := by
  have hfill := fillOn_within_zero errno (zeroed n) h
  rw [length_zeroed] at hfill
  exact hfill.trans (Fill.ofSilent_set_last_write r.ending r.data hn)

end Pointer

section Status

variable (r : StatusReply) (errno : Int32) (n : Nat)

theorem freshFill_xsi :
    xsi.freshFill r errno n =
      if (r.reportFor n).status = 0 then .ofReported (r.ending.write r.data (zeroed n))
      else if (r.reportFor n).status = -1 then .ofStatus ((r.reportFor n).errno.getD errno)
      else .ofStatus (r.reportFor n).status := by
  have hfill := fillOn_xsi r errno (zeroed n)
  rwa [length_zeroed] at hfill

theorem freshFill_msvcrt :
    msvcrt.freshFill r errno n =
      if (r.reportFor n).status = 0 then .ofSilent (r.ending.write r.data (zeroed n))
      else .ofStatus (r.reportFor n).status := by
  have hfill := fillOn_msvcrt r errno (zeroed n)
  rwa [length_zeroed] at hfill

end Status

end Backend

end MessageLookup
