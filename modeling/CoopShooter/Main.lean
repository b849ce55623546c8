import CoopShooter.Program.Run

/-!
The server program: its arguments and standard input go in, and what it prints comes out. A run
that the system cuts short ends as an aborted program does.
-/

namespace CoopShooter

/-- All bytes that are left of a stream. -/
partial def readAll (stream : IO.FS.Stream) (sofar : ByteArray) : IO ByteArray := do
  let chunk ← stream.read 65536
  if chunk.isEmpty then pure sofar else readAll stream (sofar ++ chunk)

end CoopShooter

def main (words : List String) : IO UInt32 := do
  let input ← CoopShooter.readAll (← IO.getStdin) .empty
  let result := CoopShooter.Program.run words input.toList
  (← IO.getStdout).putStr result.output
  return result.code?.getD 134
