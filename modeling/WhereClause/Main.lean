import WhereClause.CommandLine.Run

open WhereClause.CommandLine

def main (arguments : List String) : IO UInt32 := do
  let answer := run arguments
  (← IO.getStdout).putStr answer.out
  (← IO.getStderr).putStr answer.err
  return answer.code.toUInt32
