import MessageLookup.LookupError
import MessageLookup.Capacity

/-! The records that a lookup leaves in the log. -/

namespace MessageLookup

inductive Level where
  | trace
  | debug
deriving DecidableEq, Repr

def Level.name : Level → String
  | .trace => "TRACE"
  | .debug => "DEBUG"

inductive Event where
  /-- The next buffer has this capacity. -/
  | growing (code : Int32) (capacity : Capacity)
  | resolved (code : Int32) (capacity : Capacity)
  /-- A message that takes every byte was accepted, since no buffer may be larger. -/
  | resolvedAtCapacity (code : Int32) (capacity : Capacity)
  | unresolved (code : Int32) (error : LookupError)
deriving DecidableEq

namespace Event

def level : Event → Level
  | growing .. => .debug
  | resolved .. => .trace
  | resolvedAtCapacity .. => .trace
  | unresolved .. => .debug

def message : Event → String
  | growing .. => "message truncated, growing buffer"
  | resolved .. => "resolved error message"
  | resolvedAtCapacity .. => "resolved error message at capacity"
  | unresolved .. => "could not resolve error code"

def code : Event → Int32
  | growing c _ => c
  | resolved c _ => c
  | resolvedAtCapacity c _ => c
  | unresolved c _ => c

def capacity? : Event → Option Capacity
  | growing _ n => some n
  | resolved _ n => some n
  | resolvedAtCapacity _ n => some n
  | unresolved .. => none

def error? : Event → Option LookupError
  | unresolved _ e => some e
  | _ => none

end Event

end MessageLookup
