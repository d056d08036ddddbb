import MessageLookup.Report
import MessageLookup.Host.Glibc

/-! The command line: reports one fixed code on the platform's streams, whatever its arguments are,
and ends with success even if the report could not be written. -/

namespace MessageLookup.Program

/-- Where the standard output leads: to a pipe, a device without space or a pipe that nobody
reads. -/
inductive Destination where
  | pipe
  | full
  | closed
deriving DecidableEq, Repr

def Destination.sink : Destination → Sink
  | pipe => {}
  | full => { limit := some 0, whenFull := .refuses (Glibc.cLocale.osErrorText Errno.noSpaceLeft) }
  | closed => { limit := some 0, whenFull := .refuses (Glibc.cLocale.osErrorText Errno.brokenPipe) }

/-- A failure to write the report is the last line on standard error. -/
structure Run where
  exit : UInt32
  stdout : String
  stderr : List String
  failure : Option String
deriving DecidableEq, Repr

def failureText (reason : String) : String := "failed to write report: " ++ reason

def failure? : Outcome → Option String
  | .unwritten f => some (failureText f.message)
  | _ => none

def linesOf (text : String) : List String := (text.splitOn "\n").dropLast

def run (_args : List String) (stdout : Destination) : Run :=
  let lookup := Resolver.shared.lookup .gnu
  let done := (report lookup sampleCode { out := stdout.sink } Glibc.cLocale.gnu).1
  { exit := 0
    stdout := done.streams.out.text
    stderr := linesOf done.streams.err.text ++ (failure? done.outcome).toList
    failure := failure? done.outcome }

end MessageLookup.Program
