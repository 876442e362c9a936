import C166Codec.Command
/-!
# The executable

Reads standard input, runs the command line of `C166Codec.Command`, and writes its outcome.
-/

/-- Reads all of a stream. -/
partial def readAll (s : IO.FS.Stream) (acc : String) : IO String := do
  let line ← s.getLine
  if line.isEmpty then pure acc else readAll s (acc ++ line)

def main (args : List String) : IO UInt32 := do
  let input ← readAll (← IO.getStdin) ""
  let o := C166Codec.Command.main args input
  IO.print o.out
  IO.eprint o.err
  pure o.exitCode
