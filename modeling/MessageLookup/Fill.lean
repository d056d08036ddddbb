import MessageLookup.LookupError
import MessageLookup.Text.Utf8
import MessageLookup.Capacity

/-! What one call into the host produced, and how a buffer or a status is read. Two readings of a
buffer agree on the message, the bytes before the first NUL. They differ where the NUL is the last
byte: a host that cuts messages off without saying so may have cut this one. An attempt at a message
is what was produced, with the calls that were made. -/

namespace MessageLookup

/-- A full buffer is one that the message and its NUL take every byte of. -/
inductive Fill where
  | message (bytes : Bytes)
  | full (bytes : Bytes)
  | truncated
  | rejected (status : Int32)
deriving DecidableEq, Repr

namespace Fill

/-- Reads a buffer from a host that reports a message that does not fit. -/
def ofReported (buffer : Bytes) : Fill :=
  if buffer.upToNul.length < buffer.length then message buffer.upToNul else truncated

/-- Reads a buffer from a host that cuts messages off silently. -/
def ofSilent (buffer : Bytes) : Fill :=
  if buffer.upToNul.length + 1 < buffer.length then message buffer.upToNul
  else if buffer.upToNul.length < buffer.length then full buffer.upToNul
  else truncated

def ofStatus (status : Int32) : Fill :=
  if status = Errno.outOfRange then truncated else rejected status

/-- A decisive fill is not improved by a larger buffer. -/
def isDecisive : Fill → Bool
  | message _ | rejected _ => true
  | full _ | truncated => false

def conclude (code : Int32) (capacity : Capacity) : Fill → Answer
  | message b | full b => .ok (Utf8.decodeLossy b)
  | truncated => .error (.bufferTooSmall code capacity.bytes)
  | rejected status =>
    .error (if status = Errno.invalidArgument then .unknownCode code else .failed code status)

end Fill

structure Call where
  code : Int32
  length : Nat
deriving DecidableEq, Repr

structure Attempt where
  fill : Fill
  calls : List Call
deriving DecidableEq, Repr

end MessageLookup
