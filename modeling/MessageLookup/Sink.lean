import MessageLookup.Text.Utf8

/-! Output streams that may take bytes piecemeal, run full, be interrupted or fail to flush. Writing
a whole text repeats single writes until every byte is taken: an interrupted write is tried again,
and one that fails or takes nothing ends it. -/

namespace MessageLookup

inductive WhenFull where
  | refuses (reason : String)
  | takesNothing
deriving DecidableEq, Repr

/-- An output stream, with all that was written to it. -/
structure Sink where
  /-- How many bytes it holds in all. -/
  limit : Option Nat := none
  /-- How many bytes one write takes at most. -/
  chunk : Option Nat := none
  whenFull : WhenFull := .refuses "stream full"
  flushFailure : Option String := none
  /-- How many of the next writes are interrupted. -/
  interrupts : Nat := 0
  written : Array UInt8 := #[]
  flushes : Nat := 0
deriving DecidableEq, Repr

inductive WriteFailure where
  | refused (reason : String)
  | tookNothing
  | notFlushed (reason : String)
deriving DecidableEq, Repr

def WriteFailure.message : WriteFailure → String
  | refused reason => reason
  | tookNothing => "failed to write whole buffer"
  | notFlushed reason => reason

inductive WriteResult where
  | interrupted
  | took (count : Nat)
  | refused (reason : String)
deriving DecidableEq, Repr

/-- The first bytes, as many as a bound allows. -/
def Bytes.within (bound : Option Nat) (data : Bytes) : Bytes :=
  match bound with
  | none => data
  | some n => data.take n

namespace Sink

def room (s : Sink) : Option Nat := s.limit.map (· - s.written.size)

/-- The bytes that one write takes while there is room. -/
def accepted (s : Sink) (data : Bytes) : Bytes := (data.within s.chunk).within s.room

def write (s : Sink) (data : Bytes) : WriteResult × Sink :=
  if 0 < s.interrupts then (.interrupted, { s with interrupts := s.interrupts - 1 })
  else if s.room = some 0 then
    match s.whenFull with
    | .refuses reason => (.refused reason, s)
    | .takesNothing => (.took 0, s)
  else
    let part := s.accepted data
    (.took part.length, { s with written := s.written ++ part })

theorem interrupts_write_interrupted {s s' : Sink} {data : Bytes}
    (h : s.write data = (.interrupted, s')) : s'.interrupts < s.interrupts := by
  unfold write at h
  split at h
  · cases h; simp; omega
  · split at h
    · split at h <;> cases h
    · cases h

theorem interrupts_write_took {s s' : Sink} {data : Bytes} {n : Nat}
    (h : s.write data = (.took n, s')) : s'.interrupts = s.interrupts := by
  unfold write at h
  split at h
  · cases h
  · split at h
    · split at h <;> cases h; rfl
    · cases h; rfl

def writeAll (s : Sink) (data : Bytes) : Option WriteFailure × Sink :=
  match data with
  | [] => (none, s)
  | b :: rest =>
    match _h : s.write (b :: rest) with
    | (.interrupted, s') => s'.writeAll (b :: rest)
    | (.refused reason, s') => (some (.refused reason), s')
    | (.took 0, s') => (some .tookNothing, s')
    | (.took (n + 1), s') => s'.writeAll (rest.drop n)
termination_by data.length + s.interrupts
decreasing_by
  · have := interrupts_write_interrupted _h
    omega
  · have := interrupts_write_took _h
    simp; omega

/-- Writes the parts of a text in order, up to the first that fails. -/
def writeParts (s : Sink) : List String → Option WriteFailure × Sink
  | [] => (none, s)
  | part :: parts =>
    match s.writeAll (Utf8.encode part) with
    | (none, s') => s'.writeParts parts
    | (some failure, s') => (some failure, s')

def flush (s : Sink) : Option WriteFailure × Sink :=
  (s.flushFailure.map .notFlushed, { s with flushes := s.flushes + 1 })

def deliver (s : Sink) (parts : List String) : Option WriteFailure × Sink :=
  match s.writeParts parts with
  | (none, s') => s'.flush
  | (some failure, s') => (some failure, s')

def text (s : Sink) : String := Utf8.decodeLossy s.written.toList

end Sink

end MessageLookup
