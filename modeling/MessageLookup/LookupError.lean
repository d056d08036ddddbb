import MessageLookup.Text

/-! Why a lookup failed. Every failure names the code that was looked up and has one status, the
number by which the operating system would describe it. The operating system's numbers that have a
meaning here come first. -/

namespace MessageLookup

namespace Errno

def invalidArgument : Int32 := 22

def noSpaceLeft : Int32 := 28

def brokenPipe : Int32 := 32

/-- The number of a call whose result does not fit. -/
def outOfRange : Int32 := 34

def illegalSequence : Int32 := 84

end Errno

/-- The host does not know the code, the largest buffer allowed is too small for the message, or the
host failed with a status of its own. -/
inductive LookupError where
  | unknownCode (code : Int32)
  | bufferTooSmall (code : Int32) (capacity : Nat)
  | failed (code : Int32) (status : Int32)
deriving DecidableEq, Repr

namespace LookupError

def code : LookupError → Int32
  | unknownCode c => c
  | bufferTooSmall c _ => c
  | failed c _ => c

def status : LookupError → Int32
  | unknownCode _ => Errno.invalidArgument
  | bufferTooSmall _ _ => Errno.outOfRange
  | failed _ s => s

def message : LookupError → String
  | unknownCode c => "unknown error code " ++ Decimal.code c
  | bufferTooSmall c n =>
    "message for error code " ++ Decimal.code c ++ " does not fit in " ++ Decimal.natural n ++ " bytes"
  | failed c s =>
    "lookup of error code " ++ Decimal.code c ++ " failed with status " ++ Decimal.code s

def debugText : LookupError → String
  | unknownCode c => Record.text "UnknownCode" [("code", Decimal.code c)]
  | bufferTooSmall c n =>
    Record.text "BufferTooSmall" [("code", Decimal.code c), ("capacity", Decimal.natural n)]
  | failed c s => Record.text "Status" [("code", Decimal.code c), ("status", Decimal.code s)]

end LookupError

/-- An error of the operating system, which is known by its number. -/
structure OsError where
  number : Int32
deriving DecidableEq, Repr

def LookupError.toOsError (e : LookupError) : OsError := ⟨e.status⟩

/-- What a lookup answers: the message, or why there is none. -/
abbrev Answer := Except LookupError String

end MessageLookup
