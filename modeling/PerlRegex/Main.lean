import PerlRegex.CommandLine.Arguments
import PerlRegex.CommandLine.Response

/-! The program: its arguments make a request, and the response says what to write. -/

open PerlRegex.CommandLine

partial def readAll (stream : IO.FS.Stream) (read : ByteArray) : IO ByteArray := do
  let chunk ← stream.read 65536
  if chunk.isEmpty then return read
  readAll stream (read ++ chunk)

def main (arguments : List String) : IO UInt32 := do
  let request := Request.ofArguments arguments
  let input ← if request.readsInput then readAll (← IO.getStdin) .empty else pure .empty
  let response := request.respond input.data.toList
  IO.print response.output
  IO.eprint response.errorOutput
  return response.exitCode
