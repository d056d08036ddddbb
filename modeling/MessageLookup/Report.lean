import MessageLookup.Lookup
import MessageLookup.Sink

/-! Reporting a code. A message goes to the output stream and a failure to the error stream, one line
each, and the stream is flushed after it. -/

namespace MessageLookup

structure Streams where
  out : Sink := {}
  err : Sink := {}
deriving DecidableEq, Repr

inductive Outcome where
  /-- The message was written to the output stream. -/
  | described (message : String)
  /-- The failure was written to the error stream. -/
  | failed (error : LookupError)
  | unwritten (failure : WriteFailure)
deriving DecidableEq, Repr

/-- A report, the streams after it, and the calls and log records of its lookup. -/
structure Report where
  outcome : Outcome
  streams : Streams
  calls : List Call
  log : List Event

def sampleCode : Int32 := Errno.illegalSequence

def messageLine (code : Int32) (message : String) : List String :=
  ["Error ", Decimal.code code, ": ", message, "\n"]

def failureLine (mechanism : String) (error : LookupError) : List String :=
  [mechanism, " failed: ", error.message, "\n"]

/-- What a report ends with, unless its stream failed. -/
def Outcome.unless (failure : Option WriteFailure) (outcome : Outcome) : Outcome :=
  match failure with
  | none => outcome
  | some f => unwritten f

/-- Looks a code up once and reports what was found. -/
def report {σ : Type} (lookup : Lookup σ) (code : Int32) (streams : Streams) (s : σ) : Report × σ :=
  let found := lookup.resolve code s
  match found.1.answer with
  | .ok message =>
    let delivered := streams.out.deliver (messageLine code message)
    ({ outcome := .unless delivered.1 (.described message)
       streams := { streams with out := delivered.2 }
       calls := found.1.calls
       log := found.1.log }, found.2)
  | .error error =>
    let delivered := streams.err.deliver (failureLine lookup.mechanism error)
    ({ outcome := .unless delivered.1 (.failed error)
       streams := { streams with err := delivered.2 }
       calls := found.1.calls
       log := found.1.log ++ [.unresolved code error] }, found.2)

section

variable {σ : Type} {lookup : Lookup σ} {code : Int32} {s : σ}

theorem report_of_ok {m : String} (h : (lookup.resolve code s).1.answer = .ok m)
    (streams : Streams) :
    report lookup code streams s =
      ({ outcome := .unless (streams.out.deliver (messageLine code m)).1 (.described m)
         streams := { streams with out := (streams.out.deliver (messageLine code m)).2 }
         calls := (lookup.resolve code s).1.calls
         log := (lookup.resolve code s).1.log }, (lookup.resolve code s).2) := by
  simp only [report, h]

theorem report_of_error {e : LookupError} (h : (lookup.resolve code s).1.answer = .error e)
    (streams : Streams) :
    report lookup code streams s =
      ({ outcome := .unless (streams.err.deliver (failureLine lookup.mechanism e)).1 (.failed e)
         streams :=
           { streams with err := (streams.err.deliver (failureLine lookup.mechanism e)).2 }
         calls := (lookup.resolve code s).1.calls
         log := (lookup.resolve code s).1.log ++ [.unresolved code e] },
        (lookup.resolve code s).2) := by
  simp only [report, h]

end

end MessageLookup
