import MessageLookup.Program

/-! The executable: prints on the process's own streams what the program prints. -/

namespace MessageLookup

def stdoutFailure : IO.Error → String
  | .resourceExhausted .. => Glibc.cLocale.osErrorText Errno.noSpaceLeft
  | .resourceVanished .. => Glibc.cLocale.osErrorText Errno.brokenPipe
  | e => toString e

end MessageLookup

/-- Runs the program. A report that cannot be printed is logged, and the exit code stays. -/
def main (args : List String) : IO UInt32 := do
  let done := MessageLookup.Program.run args .pipe
  for line in done.stderr do
    IO.eprintln line
  try
    let out ← IO.getStdout
    out.putStr done.stdout
    out.flush
  catch e =>
    IO.eprintln (MessageLookup.Program.failureText (MessageLookup.stdoutFailure e))
  return done.exit
