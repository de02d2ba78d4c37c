import ListingSnapshot.Program

/-!
# The command line

The thin layer around `Program.run`: it fetches the value from the environment and the bytes from
standard input, and hands out what the program leaves behind.
-/

namespace ListingSnapshot.Program

/-- All bytes up to the end of a stream, behind those read before. -/
partial def readAll (stream : IO.FS.Stream) (before : ByteArray) : IO ByteArray := do
  let chunk ← stream.read 65536
  if chunk.isEmpty then return before else readAll stream (before ++ chunk)

end ListingSnapshot.Program

open ListingSnapshot

/-- Reads records from standard input and writes reports to standard output. -/
def main : IO UInt32 := do
  let value? ← IO.getEnv Policy.environmentKey
  let input ← Program.readAll (← IO.getStdin) .empty
  let ending := Program.run value? input.data.toList
  let stdout ← IO.getStdout
  stdout.write ⟨ending.output.toArray⟩
  stdout.flush
  unless ending.complaint.isEmpty do
    (← IO.getStderr).putStr ending.complaint
  return ending.exitCode.toUInt32
