import MessageLookup.Host.Reply
import MessageLookup.Host.Script

/-! The host below a lookup: the replies it will give and the thread's error number. Filling a buffer
is one call of its message function, or none for an empty buffer. -/

namespace MessageLookup

structure Host (b : Backend) where
  answers : Answers b.Reply
  errno : Int32 := 0

/-- What filling a buffer produced, and the buffer after it. -/
structure Filled extends Attempt where
  buffer : Bytes
deriving DecidableEq, Repr

namespace Host

variable {b : Backend}

def served (h : Host b) (code : Int32) (buffer : Bytes) : Served b.Return :=
  b.serve (h.answers.reply code) h.errno buffer

/-- The host after a call for a code that returned `result`. -/
def after (h : Host b) (code : Int32) (result : b.Return) : Host b where
  answers := h.answers.advance code
  errno := b.errnoAfter h.errno result

/-- Asks for the message of a code, with the buffer as scratch space. -/
def fill (h : Host b) (code : Int32) (buffer : Bytes) : Filled × Host b :=
  if buffer.isEmpty then
    ({ fill := .truncated, calls := [], buffer := buffer }, h)
  else
    let s := h.served code buffer
    ({ fill := b.interpret s.buffer s.result, calls := [⟨code, buffer.length⟩], buffer := s.buffer },
      h.after code s.result)

/-- Asks for the messages of codes in turn, on one buffer. -/
def fillEach (h : Host b) : List Int32 → Bytes → List Filled × Host b
  | [], _ => ([], h)
  | code :: codes, buffer =>
    let first := h.fill code buffer
    let rest := first.2.fillEach codes first.1.buffer
    (first.1 :: rest.1, rest.2)

def install (h : Host b) (answers : Answers b.Reply) : Host b := { h with answers := answers }

def attempt (code : Int32) (capacity : Capacity) (h : Host b) : Attempt × Host b :=
  let f := h.fill code (Bytes.zeroed capacity.bytes)
  (f.1.toAttempt, f.2)

end Host

end MessageLookup
