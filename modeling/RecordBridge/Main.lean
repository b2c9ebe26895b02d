import RecordBridge.Plugin.Reply

/-!
# The command line

The plugin reads a request from standard input and writes its response to standard output.
-/

namespace RecordBridge

/-- All bytes up to the end of a stream. -/
partial def readToEnd (stream : IO.FS.Stream) (before : ByteArray) : IO ByteArray := do
  let chunk ← stream.read 65536
  if chunk.isEmpty then return before else readToEnd stream (before ++ chunk)

end RecordBridge

open RecordBridge in
/-- Answers the request on standard input. -/
def main : IO UInt32 := do
  let input ← readToEnd (← IO.getStdin) .empty
  let (code, output) := PluginRequest.serve input.toList snake
  let stream ← IO.getStdout
  stream.write ⟨output.toArray⟩
  stream.flush
  return code
