import ConnectionBroker.CommandLine.Run

/-!
# The program

Prints what a command line comes to and ends with its exit code.
-/

open ConnectionBroker

def main (arguments : List String) : IO UInt32 := do
  let outcome := CommandLine.run arguments
  (← IO.getStdout).putStr outcome.stdout
  (← IO.getStderr).putStr outcome.stderr
  return outcome.code.toUInt32
