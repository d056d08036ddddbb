import MessageLookup.Fill

/-! The three flavours of the host's message function, and what each return means. GNU returns a
pointer. XSI returns a status and reports a message that does not fit. The Microsoft runtime returns
a status and cuts messages off silently, as GNU does when it writes to the buffer. -/

namespace MessageLookup

inductive Backend where
  | gnu
  | xsi
  | msvcrt
deriving DecidableEq, Repr

/-- A pointer leads so many bytes into the buffer, or to a string of the host's own. -/
inductive Pointer where
  | null
  | inside (offset : Nat)
  | elsewhere (text : Bytes)
deriving DecidableEq, Repr

/-- A returned status, with the thread's error number after the call. -/
structure StatusReturn where
  status : Int32
  errno : Int32
deriving DecidableEq, Repr

/-- Only the start of the buffer is told from a string of the host's own; a pointer further inside
is trusted like one. -/
def Pointer.read (buffer : Bytes) : Pointer → Fill
  | null => .rejected Errno.invalidArgument
  | inside 0 => .ofSilent buffer
  | inside (k + 1) => .message (Bytes.upToNul (buffer.drop (k + 1)))
  | elsewhere text => .message text.upToNul

/-- Status -1 says that the status proper is the error number. -/
def StatusReturn.readReported (buffer : Bytes) (r : StatusReturn) : Fill :=
  if r.status = 0 then .ofReported buffer
  else if r.status = -1 then .ofStatus r.errno
  else .ofStatus r.status

def StatusReturn.readSilent (buffer : Bytes) (r : StatusReturn) : Fill :=
  if r.status = 0 then .ofSilent buffer else .ofStatus r.status

namespace Backend

def mechanism : Backend → String
  | gnu => "strerror_r"
  | xsi => "strerror_r"
  | msvcrt => "strerror_s"

@[reducible] def Return : Backend → Type
  | gnu => Pointer
  | xsi => StatusReturn
  | msvcrt => StatusReturn

def interpret (buffer : Bytes) : (b : Backend) → b.Return → Fill
  | gnu => Pointer.read buffer
  | xsi => StatusReturn.readReported buffer
  | msvcrt => StatusReturn.readSilent buffer

end Backend

end MessageLookup
