import RingOverlay.CommandLine.Process

/-!
# The program

Reads the whole input, runs the process that the arguments describe over it, and prints what it
leaves behind.
-/

namespace RingOverlay.CommandLine

/-- Everything that a stream still holds. -/
def readAll (stream : IO.FS.Stream) : IO (List UInt8) := do
  let mut bytes := ByteArray.empty
  repeat
    let chunk ← stream.read 65536
    if chunk.isEmpty then break
    bytes := bytes ++ chunk
  return bytes.data.toList

end RingOverlay.CommandLine

open RingOverlay

/-- The command line. -/
def main (args : List String) : IO UInt32 := do
  let ended := CommandLine.run .up args (← CommandLine.readAll (← IO.getStdin))
  for line in ended.stdout do
    IO.println line
  for line in ended.stderr do
    IO.eprintln line
  return ended.code.toUInt32
