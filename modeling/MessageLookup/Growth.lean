import MessageLookup.Event
import MessageLookup.Fill

/-! Growing the buffer. An attempt that is decisive ends a lookup, and so does any attempt with the
largest buffer; after every other one the buffer is doubled, up to the maximum. -/

namespace MessageLookup

/-- Where attempts come from: the code, the size of a fresh buffer and the state before give the
attempt and the state after. -/
abbrev Source (σ : Type) := Int32 → Capacity → σ → Attempt × σ

/-- A lookup that has ended. -/
structure Resolution where
  answer : Answer
  calls : List Call
  log : List Event

/-- The last record of a lookup. One that failed leaves none. -/
def Fill.closing (code : Int32) (capacity : Capacity) : Fill → List Event
  | message _ => [.resolved code capacity]
  | full _ => [.resolvedAtCapacity code capacity]
  | truncated => []
  | rejected _ => []

def Attempt.conclude (a : Attempt) (code : Int32) (capacity : Capacity) : Resolution where
  answer := a.fill.conclude code capacity
  calls := a.calls
  log := a.fill.closing code capacity

def Attempt.followedBy (a : Attempt) (code : Int32) (next : Capacity) (rest : Resolution) :
    Resolution where
  answer := rest.answer
  calls := a.calls ++ rest.calls
  log := .growing code next :: rest.log

theorem Capacity.grown_closer {c max : Capacity} (h : ¬ max ≤ c) :
    max.bytes - (c.grown max).bytes < max.bytes - c.bytes := by
  have := c.pos
  rw [Capacity.le_def] at h
  rw [Capacity.bytes_grown]
  omega

def grow {σ : Type} (source : Source σ) (code : Int32) (max c : Capacity) (s : σ) :
    Resolution × σ :=
  let a := source code c s
  if a.1.fill.isDecisive then (a.1.conclude code c, a.2)
  else if max ≤ c then (a.1.conclude code c, a.2)
  else
    let rest := grow source code max (c.grown max) a.2
    (a.1.followedBy code (c.grown max) rest.1, rest.2)
termination_by max.bytes - c.bytes
decreasing_by exact Capacity.grown_closer (by assumption)

end MessageLookup
