import MessageLookup.Backend

/-! How a host answers one call: what it writes to the buffer and what it returns. A host that does
not know a code leaves the buffer as it was. -/

namespace MessageLookup

/-- Whether a NUL follows the text that a host writes: always, so that the text is cut to leave room
for it, only if there is room left, or never. -/
inductive Ending where
  | always
  | room
  | never
deriving DecidableEq, Repr

/-- The bytes that reach a buffer of `n` bytes. -/
def Ending.written (data : Bytes) (n : Nat) : Ending → Bytes
  | always => data.take (n - 1) ++ [0]
  | room => (data ++ [0]).take n
  | never => data.take n

def Ending.write (e : Ending) (data : Option Bytes) (buffer : Bytes) : Bytes :=
  match data with
  | none => buffer
  | some d => buffer.overwrite (e.written d buffer.length)

/-- Where a returned pointer leads. A static string is the host's own and holds the data; a pointer
into the buffer leads to its last byte at most, which is made a NUL. -/
inductive Target where
  | null
  | static
  | start
  | within (offset : Nat)
deriving DecidableEq, Repr

structure PointerReply where
  data : Option Bytes := none
  ending : Ending := .always
  target : Target
deriving DecidableEq, Repr

/-- A report without an error number leaves the last one. -/
structure StatusReport where
  status : Int32
  errno : Option Int32 := none
deriving DecidableEq, Repr

/-- A reply that returns a status, and another one, if there is one, when the data does not fit. -/
structure StatusReply where
  data : Option Bytes := none
  ending : Ending := .always
  report : StatusReport
  short : Option StatusReport := none
deriving DecidableEq, Repr

def PointerReply.refusal : PointerReply := { target := .null }

def StatusReply.refusal : StatusReply := { report := ⟨Errno.invalidArgument, none⟩ }

structure Served (ρ : Type) where
  result : ρ
  buffer : Bytes

def PointerReply.serve (r : PointerReply) (buffer : Bytes) : Served Pointer :=
  match r.target with
  | .null => ⟨.null, r.ending.write r.data buffer⟩
  | .static => ⟨.elsewhere (r.data.getD []), buffer⟩
  | .start => ⟨.inside 0, r.ending.write r.data buffer⟩
  | .within k =>
    ⟨.inside (min k (buffer.length - 1)), (r.ending.write r.data buffer).set (buffer.length - 1) 0⟩

def StatusReply.reportFor (r : StatusReply) (n : Nat) : StatusReport :=
  if n ≤ (r.data.getD []).length then r.short.getD r.report else r.report

def StatusReply.serve (r : StatusReply) (errno : Int32) (buffer : Bytes) : Served StatusReturn :=
  let report := r.reportFor buffer.length
  ⟨⟨report.status, report.errno.getD errno⟩, r.ending.write r.data buffer⟩

namespace Backend

@[reducible] def Reply : Backend → Type
  | gnu => PointerReply
  | xsi => StatusReply
  | msvcrt => StatusReply

def refusal : (b : Backend) → b.Reply
  | gnu => PointerReply.refusal
  | xsi => StatusReply.refusal
  | msvcrt => StatusReply.refusal

def serve : (b : Backend) → b.Reply → Int32 → Bytes → Served b.Return
  | gnu => fun r _ buffer => r.serve buffer
  | xsi => StatusReply.serve
  | msvcrt => StatusReply.serve

/-- The error number after a call; a call that returns a pointer leaves it. -/
def errnoAfter (before : Int32) : (b : Backend) → b.Return → Int32
  | gnu => fun _ => before
  | xsi => StatusReturn.errno
  | msvcrt => StatusReturn.errno

end Backend

end MessageLookup
