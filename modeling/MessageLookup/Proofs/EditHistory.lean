import Mathlib.Data.List.Basic
import Mathlib.Data.List.Induction
import MessageLookup.Options.Edit

/-! What edited options are. The current options come from some of the edits: a load is traced back
to the last save before it, and what was set before the options were new is forgotten. The options
hold the last capacities set by these edits (`follows_after`), and no resolver that they finish to
changes them. -/

namespace MessageLookup

/-- The places of a draft where options are kept. -/
inductive Slot where
  | current
  | saved
deriving DecidableEq

namespace Edit

def initial? : Edit → Option Capacity
  | initial c => some c
  | chain i _ => some i
  | _ => none

def max? : Edit → Option Capacity
  | max c => some c
  | chain _ m => some m
  | _ => none

/-- The edits that the options in a slot come from. All edits stand newest first. -/
def history : Slot → List Edit → List Edit
  | _, [] => []
  | .saved, save :: edits => history .current edits
  | .saved, _ :: edits => history .saved edits
  | .current, load :: edits => history .saved edits
  | .current, reset :: _ => []
  | .current, e :: edits => e :: history .current edits

end Edit

namespace Options

/-- Options with the last capacities that were set, newest first. -/
def ofHistory (past : List Edit) : Options where
  initial := (past.findSome? Edit.initial?).getD .defaultInitial
  max := (past.findSome? Edit.max?).getD .defaultMax

/-- Options after an edit that goes on with them. -/
def set (o : Options) (e : Edit) : Options where
  initial := e.initial?.getD o.initial
  max := e.max?.getD o.max

theorem ofHistory_cons (e : Edit) (past : List Edit) :
    ofHistory (e :: past) = (ofHistory past).set e := by
  cases e <;> rfl

end Options

namespace Draft

def options (d : Draft) : Slot → Options
  | .current => d.current
  | .saved => d.saved

def after (d : Draft) (edits : List Edit) : Draft := edits.foldl apply d

/-- Both options of the draft are as the edits so far, newest first, set them. -/
def Follows (d : Draft) (past : List Edit) : Prop :=
  ∀ slot, d.options slot = .ofHistory (Edit.history slot past)

theorem Follows.apply {d : Draft} {past : List Edit} (h : d.Follows past) (e : Edit) :
    (d.apply e).Follows (e :: past) := by
  have hset : ∀ e, d.current.set e = .ofHistory (e :: Edit.history .current past) := by
    intro e
    rw [Options.ofHistory_cons, ← h .current]
    rfl
  intro slot
  cases slot with
  | current =>
    cases e with
    | reset => rfl
    | initial c => exact hset (.initial c)
    | max c => exact hset (.max c)
    | chain i m => exact hset (.chain i m)
    | save => exact hset .save
    | load => exact h .saved
    | finish => exact hset .finish
  | saved =>
    cases e with
    | save => exact h .current
    | reset | initial c | max c | chain i m | load | finish => exact h .saved

theorem after_concat (d : Draft) (edits : List Edit) (e : Edit) :
    d.after (edits ++ [e]) = (d.after edits).apply e := by
  rw [after, List.foldl_append]
  rfl

theorem follows_after (edits : List Edit) : (after {} edits).Follows edits.reverse := by
  induction edits using List.reverseRecOn with
  | nil => rintro (- | -) <;> rfl
  | append_singleton edits e ih =>
    rw [after_concat, List.reverse_concat]
    exact ih.apply e

/-- Step `j` of a run is the one on the draft that the edits up to it leave. -/
theorem getElem?_run (d : Draft) (edits : List Edit) (j : Nat) :
    (d.run edits)[j]? = edits[j]?.map fun e =>
      (d.after (edits.take (j + 1)), e.finished? (d.after (edits.take (j + 1)))) := by
  induction edits generalizing d j with
  | nil => rfl
  | cons e edits ih =>
    cases j with
    | zero => rfl
    | succ j => exact ih (d.apply e) j

theorem saved_after {edits : List Edit} (h : .save ∉ edits) (d : Draft) :
    (d.after edits).saved = d.saved := by
  induction edits generalizing d with
  | nil => rfl
  | cons e edits ih =>
    rw [List.mem_cons, not_or] at h
    refine (ih h.2 (d.apply e)).trans ?_
    cases e with
    | save => exact absurd rfl h.1
    | reset | initial c | max c | chain i m | load | finish => rfl

/-- Neither another maximum nor a resolver changes the wanted initial capacity. -/
theorem initial_after {edits : List Edit}
    (h : ∀ e ∈ edits, e.initial? = none ∧ e ≠ .reset ∧ e ≠ .load) (d : Draft) :
    (d.after edits).current.initial = d.current.initial := by
  induction edits generalizing d with
  | nil => rfl
  | cons e edits ih =>
    rw [List.forall_mem_cons] at h
    obtain ⟨⟨hinitial, hreset, hload⟩, hrest⟩ := h
    refine (ih hrest (d.apply e)).trans ?_
    cases e with
    | initial c | chain i m => cases hinitial
    | reset => exact absurd rfl hreset
    | load => exact absurd rfl hload
    | max c | save | finish => rfl

end Draft

theorem Resolver.finish_toOptions (r : Resolver) : r.toOptions.finish = r := by
  cases r with
  | mk initial max hle =>
    have hinitial : min initial max = initial := if_pos hle
    simp only [toOptions, Options.finish, hinitial]

theorem Capacity.bytes_getD (c? : Option Capacity) (c : Capacity) :
    (c?.getD c).bytes = c?.elim c.bytes bytes := by
  cases c? <;> rfl

/-- Whatever is edited, saved and loaded, a resolver starts with the initial capacity that was set
last and grows to the maximum that was set last, or starts with that if it is less. The setters
commute, a saved copy stays, the options keep what a resolver could not use, and the capacities of
a resolver make the same resolver again. -/
theorem finish_by_history (edits : List Edit) (d : Draft) :
    (∀ j e, edits[j]? = some e → e = .finish ∨ (∃ i m, e = .chain i m) →
      let past := Edit.history .current (edits.take (j + 1)).reverse
      let initial := (past.findSome? Edit.initial?).elim 256 Capacity.bytes
      let max := (past.findSome? Edit.max?).elim 65536 Capacity.bytes
      ∃ r, (Draft.run {} edits)[j]?.bind Prod.snd = some r ∧
        r.max.bytes = max ∧ r.initial.bytes = min initial max ∧
        1 ≤ r.initial.bytes ∧ r.initial.bytes ≤ r.max.bytes) ∧
    (∀ i m, d.after [.initial i, .max m] = d.after [.max m, .initial i]) ∧
    d.after [.finish] = d ∧
    (∀ m, (∀ e ∈ edits, e.initial? = none ∧ e ≠ .reset ∧ e ≠ .load) → d.current.initial ≤ m →
      (d.after (edits ++ [.max m])).current.finish.initial = d.current.initial) ∧
    (.save ∉ edits → (d.after (.save :: edits)).saved = d.current ∧
      (d.after (.save :: edits ++ [.load])).current = d.current) ∧
    ∀ r : Resolver, ((({} : Options).withInitial r.initial).withMax r.max).finish = r := by
  refine ⟨fun j e he hfinish => ?_, fun i m => rfl, rfl, fun m hedits hle => ?_, fun hsave => ?_,
    Resolver.finish_toOptions⟩
  · intro past initial max
    have hcurrent : (Draft.after {} (edits.take (j + 1))).current = .ofHistory past :=
      Draft.follows_after (edits.take (j + 1)) .current
    have hstep : (Draft.run {} edits)[j]?.bind Prod.snd = some (Options.ofHistory past).finish := by
      rw [Draft.getElem?_run, he, ← hcurrent]
      rcases hfinish with rfl | ⟨i, m, rfl⟩ <;> rfl
    have hinitial : (Options.ofHistory past).initial.bytes = initial := Capacity.bytes_getD _ _
    have hmax : (Options.ofHistory past).max.bytes = max := Capacity.bytes_getD _ _
    refine ⟨_, hstep, hmax, ?_, Capacity.pos _, Resolver.initial_le_max _⟩
    rw [Options.bytes_initial_finish, hinitial, hmax]
  · have hkept := Draft.initial_after hedits d
    rw [Draft.after_concat, ← hkept]
    rw [← hkept] at hle
    exact if_pos hle
  · have hsaved := Draft.saved_after hsave (d.apply .save)
    refine ⟨hsaved, ?_⟩
    rw [Draft.after_concat]
    exact hsaved

-- the first resolver is clamped to 64 bytes, and the options still want 4096 when they are loaded
theorem finish_by_history_clamped :
    let wanted : Capacity := ⟨4096, by decide, by decide⟩
    let edits : List Edit := [.initial wanted, .max ⟨64, by decide, by decide⟩, .save, .finish,
      .reset, .load, .max ⟨8192, by decide, by decide⟩, .finish]
    (∃ r, (Draft.run {} edits)[3]?.bind Prod.snd = some r ∧ r.initial.bytes = 64) ∧
      ∃ r, (Draft.run {} edits)[7]?.bind Prod.snd = some r ∧ r.initial.bytes = 4096 ∧
        r.max.bytes = 8192 := by
  intro wanted edits
  have hfinish := (finish_by_history edits {}).1
  obtain ⟨r, hr, -, hinitial, -⟩ := hfinish 3 .finish rfl (Or.inl rfl)
  obtain ⟨r', hr', hmax', hinitial', -⟩ := hfinish 7 .finish rfl (Or.inl rfl)
  exact ⟨⟨r, hr, hinitial⟩, r', hr', hinitial', hmax'⟩

end MessageLookup
